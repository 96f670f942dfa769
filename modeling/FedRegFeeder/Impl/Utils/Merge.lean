import FedRegFeeder.Framework.Keyed
import FedRegFeeder.Impl.Models.Provider

/-!
# Merging what the connections of a provider returned

The merging functions of `src/utils.py`. Each connection gives a sibling: an
identity provider, a project and a region. `mergeComponents` merges the
siblings of a provider, one after the other, into dictionaries: identity
providers by endpoint, projects by uuid, regions by name; inside a region the
services of each kind are merged by endpoint and the resources of a service
by uuid. At the end it removes from the private flavors and images the
projects that are not among those merged.

The lists that Python updates in place are returned: siblings share no
objects.
-/

namespace FRF.Impl

open Py (PyError)
open Framework (Dict mergeAll)

/-- A resource of a service, with its access list. -/
class Resource (ρ : Type) where
  uuid : ρ → String
  access : ρ → Access
  withAccess : ρ → Access → ρ
  access_withAccess : ∀ r a, access (withAccess r a) = a
  uuid_withAccess : ∀ r a, uuid (withAccess r a) = uuid r

attribute [simp] Resource.access_withAccess Resource.uuid_withAccess

instance : Resource Flavor where
  uuid := Flavor.uuid
  access := Flavor.access
  withAccess r a := { r with access := a }
  access_withAccess _ _ := rfl
  uuid_withAccess _ _ := rfl

instance : Resource Image where
  uuid := Image.uuid
  access := Image.access
  withAccess r a := { r with access := a }
  access_withAccess _ _ := rfl
  uuid_withAccess _ _ := rfl

instance : Resource Network where
  uuid := Network.uuid
  access := Network.access
  withAccess r a := { r with access := a }
  access_withAccess _ _ := rfl
  uuid_withAccess _ _ := rfl

/-- One item of `filter_compute_resources_projects`. -/
def filterProjects {ρ : Type} [Resource ρ] (projects : List String) (item : ρ) : ρ :=
  match Resource.access item with
  | .shared => item
  | .priv ps => Resource.withAccess item (.priv (ps.filter (· ∈ projects)))

def filterComputeResourcesProjects {ρ : Type} [Resource ρ] (items : List ρ)
    (projects : List String) : List ρ :=
  items.map (filterProjects projects)

/-! ## Identity providers -/

def getUpdatedIdentityProvider (currentIdp : Option IdentityProviderCreateExtended)
    (newIdp : IdentityProviderCreateExtended) : Except PyError IdentityProviderCreateExtended :=
  match currentIdp with
  | none => .ok newIdp
  | some currentIdp => do
    let names := currentIdp.userGroups.map (·.name)
    let group ← Py.index0 newIdp.userGroups
    if group.name ∉ names then
      return { currentIdp with userGroups := currentIdp.userGroups ++ [group] }
    else return currentIdp

/-! ## Resources of a service -/

/-- `new_res` after it has been compared with `curr_res`, which has the same
uuid. -/
def Network.updatedFrom (newRes currRes : Network) : Network :=
  { newRes with
    access := match newRes.access, currRes.access with
      | .priv new, .priv curr => .priv (Py.setUnion new curr)
      | access, _ => access
    isDefault := newRes.isDefault || currRes.isDefault }

/-- One turn of the loop of `get_updated_networks`. -/
def updateNetwork (currentResources resources : List Network) (newRes : Network) :
    Except PyError (List Network) :=
  match currentResources.find? (newRes.uuid = ·.uuid) with
  | some currRes => do
    let resources ← Py.remove resources currRes
    return resources ++ [newRes.updatedFrom currRes]
  | none => .ok (resources ++ [newRes])

def getUpdatedNetworks (currentResources newResources : List Network) :
    Except PyError (List Network) :=
  newResources.foldlM (updateNetwork currentResources) currentResources

def getUpdatedResources {ρ : Type} [Resource ρ] (currentResources newResources : List ρ) : List ρ :=
  let currUuids := currentResources.map Resource.uuid
  currentResources ++ newResources.filter (Resource.uuid · ∉ currUuids)

/-! ## Services -/

/-- A class of services: what `update_service` does with an instance of it,
which keeps the endpoint and concatenates the quotas. -/
class Service (σ : Type) where
  endpoint : σ → String
  quotas : σ → List QuotaCreateExtended
  updateService : (currService newService : σ) → Except PyError σ
  endpoint_updateService : ∀ {c n s}, updateService c n = .ok s → endpoint s = endpoint c
  quotas_updateService : ∀ {c n s}, updateService c n = .ok s → quotas s = quotas c ++ quotas n

instance : Service BlockStorageServiceCreateExtended where
  endpoint := (·.endpoint)
  quotas := (·.quotas)
  updateService currService newService :=
    .ok { currService with quotas := currService.quotas ++ newService.quotas }
  endpoint_updateService h := by cases h; rfl
  quotas_updateService h := by cases h; rfl

instance : Service ComputeServiceCreateExtended where
  endpoint := (·.endpoint)
  quotas := (·.quotas)
  updateService currService newService :=
    .ok { currService with
      quotas := currService.quotas ++ newService.quotas
      flavors := getUpdatedResources currService.flavors newService.flavors
      images := getUpdatedResources currService.images newService.images }
  endpoint_updateService h := by cases h; rfl
  quotas_updateService h := by cases h; rfl

instance : Service IdentityServiceCreate where
  endpoint := (·.endpoint)
  quotas _ := []
  updateService currService _ := .ok currService
  endpoint_updateService h := by cases h; rfl
  quotas_updateService h := by cases h; rfl

/-- `update_service` on network services. -/
def NetworkServiceCreateExtended.update (currService newService : NetworkServiceCreateExtended) :
    Except PyError NetworkServiceCreateExtended := do
  let networks ← getUpdatedNetworks currService.networks newService.networks
  return { currService with quotas := currService.quotas ++ newService.quotas, networks }

theorem NetworkServiceCreateExtended.update_eq_ok {c n s : NetworkServiceCreateExtended} :
    c.update n = .ok s ↔ ∃ networks, getUpdatedNetworks c.networks n.networks = .ok networks ∧
      { c with quotas := c.quotas ++ n.quotas, networks } = s := by
  simp only [update, Framework.bind_eq_ok, Framework.pure_eq_ok]

instance : Service NetworkServiceCreateExtended where
  endpoint := (·.endpoint)
  quotas := (·.quotas)
  updateService := NetworkServiceCreateExtended.update
  endpoint_updateService h := by
    obtain ⟨_, -, rfl⟩ := NetworkServiceCreateExtended.update_eq_ok.mp h; rfl
  quotas_updateService h := by
    obtain ⟨_, -, rfl⟩ := NetworkServiceCreateExtended.update_eq_ok.mp h; rfl

instance : Service ObjectStoreServiceCreateExtended where
  endpoint := (·.endpoint)
  quotas := (·.quotas)
  updateService currService newService :=
    .ok { currService with quotas := currService.quotas ++ newService.quotas }
  endpoint_updateService h := by cases h; rfl
  quotas_updateService h := by cases h; rfl

/-- Each new service updates the first current service with its endpoint, or
is appended. -/
def getUpdatedServices {σ : Type} [Service σ] (currentServices newServices : List σ) :
    Except PyError (List σ) :=
  mergeAll Service.endpoint Service.updateService currentServices newServices

/-! ## Regions -/

/-- `get_updated_region` when there is a current region. -/
def updateRegion (currentRegion newRegion : RegionCreateExtended) :
    Except PyError RegionCreateExtended := do
  let blockStorageServices ←
    getUpdatedServices currentRegion.blockStorageServices newRegion.blockStorageServices
  let computeServices ← getUpdatedServices currentRegion.computeServices newRegion.computeServices
  let identityServices ← getUpdatedServices currentRegion.identityServices newRegion.identityServices
  let networkServices ← getUpdatedServices currentRegion.networkServices newRegion.networkServices
  let objectStoreServices ←
    getUpdatedServices currentRegion.objectStoreServices newRegion.objectStoreServices
  return { currentRegion with
    blockStorageServices, computeServices, identityServices, networkServices, objectStoreServices }

def getUpdatedRegion (currentRegion : Option RegionCreateExtended)
    (newRegion : RegionCreateExtended) : Except PyError RegionCreateExtended :=
  match currentRegion with
  | none => .ok newRegion
  | some currentRegion => updateRegion currentRegion newRegion

/-! ## Providers -/

/-- What one connection contributes. -/
abbrev Sibling := IdentityProviderCreateExtended × ProjectCreate × RegionCreateExtended

/-- The dictionaries `merge_components` fills. -/
structure Merged where
  identityProviders : Dict String IdentityProviderCreateExtended := .empty
  projects : Dict String ProjectCreate := .empty
  regions : Dict String RegionCreateExtended := .empty

/-- One turn of the loop of `merge_components`. -/
def mergeSibling (m : Merged) : Sibling → Except PyError Merged
  | (identityProvider, project, region) => do
    let projects := m.projects.set project.uuid project
    let idp ← getUpdatedIdentityProvider
      (m.identityProviders.get? identityProvider.endpoint) identityProvider
    let identityProviders := m.identityProviders.set identityProvider.endpoint idp
    let reg ← getUpdatedRegion (m.regions.get? region.name) region
    let regions := m.regions.set region.name reg
    return { identityProviders, projects, regions }

/-- Filter the non-federated projects from the resources of a region. -/
def filterRegion (projects : List String) (region : RegionCreateExtended) : RegionCreateExtended :=
  { region with computeServices := region.computeServices.map fun service => { service with
      flavors := filterComputeResourcesProjects service.flavors projects
      images := filterComputeResourcesProjects service.images projects } }

def mergeComponents (siblings : List Sibling) : Except PyError
    (List IdentityProviderCreateExtended × List ProjectCreate × List RegionCreateExtended) := do
  let m ← siblings.foldlM mergeSibling {}
  return (m.identityProviders.values, m.projects.values,
    m.regions.values.map (filterRegion m.projects.keys))

end FRF.Impl
