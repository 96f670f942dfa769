import FedRegFeeder.Impl.Models.IdentityProvider

/-!
# Provider configurations

`src/models/provider.py` and `src/models/site_config.py`: the configuration
of a provider, its projects and regions, and the validators of these classes.
An `Openstack` and a `Kubernetes` configuration share the attributes of
`Provider`; what only one of them has is in its `ProviderKind`.
-/

namespace FRF.Impl

open Py (PyError)

/-- A quota that applies to each user. -/
abbrev PerUserQuota := { q : QuotaBase // q.perUser = true }

/-- The per-user quotas of a project, as `set_per_user` leaves them. -/
structure Limits where
  blockStorage : Option PerUserQuota := none
  compute : Option PerUserQuota := none
  network : Option PerUserQuota := none
  objectStore : Option PerUserQuota := none
deriving DecidableEq, Repr

/-- `set_per_user`: set the `per_user` flag of a configured quota. -/
def Limits.setPerUser (v : QuotaBase) : PerUserQuota := ⟨{ v with perUser := true }, rfl⟩

structure PrivateNetProxy where
  host : String
  user : String
deriving DecidableEq, Repr

structure PerRegionProps where
  regionName : String
  defaultPublicNet : Option String := none
  defaultPrivateNet : Option String := none
  privateNetProxy : Option PrivateNetProxy := none
  perUserLimits : Limits := {}
deriving DecidableEq, Repr

structure Project where
  id : String
  description : String := ""
  sla : String
  defaultPublicNet : Option String := none
  defaultPrivateNet : Option String := none
  privateNetProxy : Option PrivateNetProxy := none
  perUserLimits : Limits := {}
  perRegionProps : List PerRegionProps := []
deriving DecidableEq, Repr

/-- What distinguishes an `Openstack` from a `Kubernetes` configuration. -/
inductive ProviderKind where
  | openstack (imageTags networkTags : List String)
  | kubernetes (caPath : Option String)
deriving DecidableEq, Repr

/-- `Openstack | Kubernetes`. -/
structure Provider where
  name : String
  kind : ProviderKind
  status : ProviderStatus := .active
  isPublic : Bool := false
  supportEmails : List String := []
  authUrl : String
  identityProviders : List AuthMethod
  regions : List Region
  projects : List Project
deriving DecidableEq, Repr

/-- The `type` literal of each class. -/
def Provider.type (p : Provider) : ProviderType :=
  match p.kind with
  | .openstack .. => .openstack
  | .kubernetes .. => .kubernetes

def Provider.findIdpDuplicates (v : List AuthMethod) : Except PyError Unit := do
  findDuplicates (v.map (·.endpoint))
  findDuplicates (v.map (·.idpName))

def Provider.findProjDuplicates (v : List Project) : Except PyError Unit := do
  findDuplicates (v.map (·.id))
  findDuplicates (v.map (·.sla))

def Provider.findRegDuplicates (v : List Region) : Except PyError Unit :=
  findDuplicates (v.map (·.name))

/-- The validators on the lists of a configuration. -/
def Provider.validate (p : Provider) : Except PyError Unit := do
  Provider.findIdpDuplicates p.identityProviders
  Provider.findRegDuplicates p.regions
  Provider.findProjDuplicates p.projects

/-- The name of the region of a configuration without regions. -/
def ProviderKind.defaultRegionName : ProviderKind → String
  | .openstack .. => "RegionOne"
  | .kubernetes .. => "default"

/-- `default_region` of `Openstack` and of `Kubernetes`. `newRegion` is `Region(name=…)`. -/
def Provider.defaultRegion (newRegion : String → Region) (kind : ProviderKind)
    (regions : List Region) : List Region :=
  if regions.length = 0 then regions ++ [newRegion kind.defaultRegionName] else regions

/-- Build a configuration from what is given for its attributes; no regions is
an empty list of them. On each attribute the validators of `Provider` run before
that of the subclass. -/
def Provider.init (newRegion : String → Region) (given : Provider) : Except PyError Provider := do
  Provider.findIdpDuplicates given.identityProviders
  Provider.findRegDuplicates given.regions
  let regions := Provider.defaultRegion newRegion given.kind given.regions
  Provider.findProjDuplicates given.projects
  return { given with regions }

/-- What a configuration that passed its validators satisfies. -/
theorem Provider.validate_eq_ok {p : Provider} {u : Unit} (h : p.validate = .ok u) :
    (p.identityProviders.map (·.endpoint)).Nodup ∧ (p.regions.map (·.name)).Nodup ∧
      (p.projects.map (·.id)).Nodup ∧ (p.projects.map (·.sla)).Nodup := by
  simp only [validate, findIdpDuplicates, findRegDuplicates, findProjDuplicates,
    Framework.bind_eq_ok, findDuplicates_eq_ok] at h
  obtain ⟨_, ⟨_, h₁, _⟩, _, h₂, _, h₃, h₄⟩ := h
  exact ⟨h₁, h₂, h₃, h₄⟩

/-- The configuration of a site: the issuers its providers trust, and the
providers. -/
structure SiteConfig where
  trustedIdps : List Issuer
  openstack : List Provider := []
  kubernetes : List Provider := []
  openstack_type : ∀ p ∈ openstack, p.type = .openstack := by simp
  kubernetes_type : ∀ p ∈ kubernetes, p.type = .kubernetes := by simp

def SiteConfig.validateIssuers (v : List Issuer) : Except PyError Unit := do
  findDuplicates (v.map (·.endpoint))
  if v.length = 0 then
    throw (.assertionError "Site config's Identity providers list can't be empty")

/-- `SiteConfig.find_duplicates`, run on each list of providers. -/
def SiteConfig.findProvDuplicates (v : List Provider) : Except PyError Unit :=
  findDuplicates (v.map (·.name))

/-- The validators that run when a site configuration is built. -/
def SiteConfig.validate (c : SiteConfig) : Except PyError Unit := do
  c.trustedIdps.forM Issuer.validate
  SiteConfig.validateIssuers c.trustedIdps
  (c.openstack ++ c.kubernetes).forM Provider.validate
  SiteConfig.findProvDuplicates c.openstack
  SiteConfig.findProvDuplicates c.kubernetes

end FRF.Impl
