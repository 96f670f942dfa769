import Mathlib.Data.Multiset.AddSub
import Mathlib.Algebra.Order.Group.Multiset
import FedRegFeeder.Impl.Utils.Merge

/-!
# What the components of a provider contain

The content of a provider's components, without the order and the grouping
of the lists that hold it: the entries it has (`Entry`, `Components.Has`) and,
for each service, the multiset of the quotas attached to it
(`Components.quotasAt`). `Components.DistinctKeys` and `Components.References`
say what the registry asks of them: distinct keys, and references to projects
that are there. The five classes of services and the three classes of
resources are indexed by `ServiceKind` and `ResourceKind`, so that what holds
of every class is stated once.
-/

namespace FRF.Spec

open FRF.Impl

inductive ServiceKind where
  | blockStorage | compute | identity | network | objectStore
deriving DecidableEq, Repr

/-- The class of the services of a kind. -/
@[reducible] def ServiceKind.Class : ServiceKind → Type
  | .blockStorage => BlockStorageServiceCreateExtended
  | .compute => ComputeServiceCreateExtended
  | .identity => IdentityServiceCreate
  | .network => NetworkServiceCreateExtended
  | .objectStore => ObjectStoreServiceCreateExtended

instance : (k : ServiceKind) → Service k.Class
  | .blockStorage => inferInstanceAs (Service BlockStorageServiceCreateExtended)
  | .compute => inferInstanceAs (Service ComputeServiceCreateExtended)
  | .identity => inferInstanceAs (Service IdentityServiceCreate)
  | .network => inferInstanceAs (Service NetworkServiceCreateExtended)
  | .objectStore => inferInstanceAs (Service ObjectStoreServiceCreateExtended)

/-- The services of a kind in a region. -/
def services (r : RegionCreateExtended) : (k : ServiceKind) → List k.Class
  | .blockStorage => r.blockStorageServices
  | .compute => r.computeServices
  | .identity => r.identityServices
  | .network => r.networkServices
  | .objectStore => r.objectStoreServices

inductive ResourceKind where
  | flavor | image | network
deriving DecidableEq, Repr

/-- The kind of the services that hold resources of a kind. -/
@[reducible] def ResourceKind.service : ResourceKind → ServiceKind
  | .flavor => .compute
  | .image => .compute
  | .network => .network

/-- The uuids of the resources of a kind in a service. -/
def uuids : (k : ResourceKind) → k.service.Class → List String
  | .flavor, s => s.flavors.map (·.uuid)
  | .image, s => s.images.map (·.uuid)
  | .network, s => s.networks.map (·.uuid)

/-- What may be in the components of a provider. -/
inductive Entry where
  | identityProvider (endpoint : String)
  | userGroup (issuer name : String)
  | project (uuid : String)
  | region (name : String)
  | service (region : String) (kind : ServiceKind) (endpoint : String)
  | resource (region : String) (kind : ResourceKind) (endpoint uuid : String)

/-- The identity providers, projects and regions of a provider. -/
abbrev Components :=
  List IdentityProviderCreateExtended × List ProjectCreate × List RegionCreateExtended

def Components.Has : Components → Entry → Prop
  | (idps, _, _), .identityProvider e => ∃ i ∈ idps, i.endpoint = e
  | (idps, _, _), .userGroup e n => ∃ i ∈ idps, i.endpoint = e ∧ n ∈ i.userGroups.map (·.name)
  | (_, projects, _), .project u => ∃ p ∈ projects, p.uuid = u
  | (_, _, regions), .region n => ∃ r ∈ regions, r.name = n
  | (_, _, regions), .service n k e =>
    ∃ r ∈ regions, r.name = n ∧ ∃ s ∈ services r k, Service.endpoint s = e
  | (_, _, regions), .resource n k e u =>
    ∃ r ∈ regions, r.name = n ∧ ∃ s ∈ services r k.service, Service.endpoint s = e ∧ u ∈ uuids k s

/-- The quotas of the services with endpoint `e`. -/
def quotasOf {σ : Type} [Service σ] (l : List σ) (e : String) : Multiset QuotaCreateExtended :=
  (l.map fun s => if Service.endpoint s = e then (Service.quotas s : Multiset _) else 0).sum

/-- The quotas attached to the services of kind `k` at endpoint `e` in the
region `n`. -/
def Components.quotasAt (c : Components) (n : String) (k : ServiceKind) (e : String) :
    Multiset QuotaCreateExtended :=
  (c.2.2.map fun r => if r.name = n then quotasOf (services r k) e else 0).sum

/-- A sibling's components. -/
def components (s : Sibling) : Components := ([s.1], [s.2.1], [s.2.2])

/-- In each kind the endpoints of a region's services are distinct, and in each
service the uuids of the resources of each kind. -/
structure DistinctServices (r : RegionCreateExtended) : Prop where
  endpoints : ∀ k, ((services r k).map Service.endpoint).Nodup
  uuids : ∀ k : ResourceKind, ∀ s ∈ services r k.service, (uuids k s).Nodup

/-- Nothing is there twice. -/
structure Components.DistinctKeys (c : Components) : Prop where
  identityProviders : (c.1.map (·.endpoint)).Nodup
  userGroups : ∀ i ∈ c.1, (i.userGroups.map (·.name)).Nodup
  projects : (c.2.1.map (·.uuid)).Nodup
  regions : (c.2.2.map (·.name)).Nodup
  services : ∀ r ∈ c.2.2, DistinctServices r

/-- The components refer to a project. -/
inductive Components.References (c : Components) : String → Prop where
  | sla {i g} : i ∈ c.1 → g ∈ i.userGroups → References c g.sla.project
  | quota {r k q} {s : k.Class} : r ∈ c.2.2 → s ∈ services r k → q ∈ Service.quotas s →
      References c q.project
  | flavor {r s x p} : r ∈ c.2.2 → s ∈ r.computeServices → x ∈ s.flavors → p ∈ x.access.projects →
      References c p
  | image {r s x p} : r ∈ c.2.2 → s ∈ r.computeServices → x ∈ s.images → p ∈ x.access.projects →
      References c p
  | network {r s x p} : r ∈ c.2.2 → s ∈ r.networkServices → x ∈ s.networks →
      p ∈ x.access.projects → References c p

/-- The shared flavors and images of each compute service of a region. -/
def sharedResources (r : RegionCreateExtended) : List (List Flavor × List Image) :=
  r.computeServices.map fun s =>
    (s.flavors.filter (·.access.isShared), s.images.filter (·.access.isShared))

end FRF.Spec
