import FedRegFeeder.Impl.Utils.Components
import FedRegFeeder.Proof.Providers.Core

/-!
# Errors of connections

What becomes of an error on a connection:

* `getProvider_isolates`: a failing connection leaves the others alone unless
  it raises a `ValueError`, which `retrieve_data` lets through;
* `status_limited_iff`: an error that is recorded while data is retrieved stays
  in the data object, so it makes the provider `limited` only if some pair
  produced no data at all.
-/

namespace FRF.Proof

open FRF.Impl FRF.Impl.ProviderThread
open Py (PyError)
open Framework

/-! ## A cluster with one namespace, and a cloud with two projects -/

def sampleIssuer : Issuer where
  endpoint := "https://iam.cloud.infn.it"
  groupClaim := "groups"
  token := "token"
  userGroups := [{ name := "users", slas :=
    [{ docUuid := "sla", startDate := "2024-01-01", endDate := "2025-01-01" }] }]

def sampleConf : Provider where
  name := "kubernetes"
  kind := .kubernetes none
  authUrl := "https://k8s.cloud.infn.it"
  identityProviders := [{ endpoint := "https://iam.cloud.infn.it" }]
  regions := [{ name := "default", overbookingCpu := 1, overbookingRam := 1, bandwidthIn := 10
                bandwidthOut := 10 }]
  projects := [{ id := "namespace", sla := "sla" }]

/-- A site with one provider, a Kubernetes cluster. -/
def kubernetesSite (issuer : Issuer) (conf : Provider) (h : conf.type = .kubernetes) :
    SiteConfig where
  trustedIdps := [issuer]
  kubernetes := [conf]
  openstack_type := List.forall_mem_nil _
  kubernetes_type := List.forall_mem_singleton.mpr h

def sampleThread : ProviderThread := { providerConf := sampleConf, issuers := [sampleIssuer] }

/-- Another issuer, with a user group for each of two projects. -/
def groupsIssuer : Issuer where
  endpoint := "https://iam.recas.ba.infn.it"
  groupClaim := "groups"
  token := "token"
  userGroups :=
    [{ name := "cms-users", slas :=
        [{ docUuid := "cms-sla", startDate := "2024-01-01", endDate := "2025-01-01" }] },
      { name := "atlas-users", slas :=
        [{ docUuid := "old-sla", startDate := "2023-01-01", endDate := "2024-01-01" },
          { docUuid := "atlas-sla", startDate := "2024-01-01", endDate := "2025-01-01" }] }]

/-- An OpenStack provider with two projects. -/
def twoProjects : ProviderThread where
  providerConf := { sampleConf with
    name := "recas"
    kind := .openstack [] []
    identityProviders :=
      [{ endpoint := "https://iam.cloud.infn.it", idpName := some "infn" },
        { endpoint := "https://iam.recas.ba.infn.it", idpName := some "recas" }]
    projects := [{ id := "cms", sla := "cms-sla" }, { id := "atlas", sla := "atlas-sla" }] }
  issuers := [sampleIssuer, groupsIssuer]

example : twoProjects.providerConf.validate = .ok () := by decide

/-- A connection of the project `project` to a cloud without services. -/
def bareCloud (project : String) : Connection where
  currentProjectId := .ok project
  getProject id := .ok { id, name := id }
  blockStorageEndpoint := .ok none
  blockStorageQuotaSet _ := .ok {}
  computeEndpoint := .ok none
  computeQuotaSet _ := .ok {}
  flavors := {}
  flavorAccess _ := {}
  images _ := {}
  members _ := {}
  networkEndpoint := .ok none
  networks _ := {}
  networkQuota _ := .ok []
  serviceCatalog := .ok []

/-- Tokens and a cluster as given, and no OpenStack. -/
def kubernetesWorld (token : Except PyError String) (cluster : Cluster) : World where
  serviceNames := { blockStorage := "block-storage", compute := "compute" }
  agent := { run := fun _ => .error .fileNotFoundError, getAccessTokenByIssuerUrl := fun _ _ _ => token }
  connectOpenstack _ := .error (.sdk .connectFailure)
  connectKubernetes _ _ _ := cluster

/-- A cluster that does not answer. -/
def unreachable : Cluster where
  listNamespacedResourceQuota _ := .error .maxRetryError
  listStorageClass := .error .maxRetryError

theorem mem_connections {t : ProviderThread} {c : ConnectionThread} :
    c ∈ connections t ↔ ∃ p ∈ pairs t.providerConf, connect t p.1 p.2 = .ok c := by
  simp only [connections, List.mem_filterMap]
  refine exists_congr fun p => and_congr_right fun _ => ?_
  cases connect t p.1 p.2 <;> simp [Except.toOption]

/-! ## Isolation -/

section
variable (retrieve : ConnectionThread → Except PyError ConnectionData) {t : ProviderThread}

/-- When retrievals raise only provider errors and `ValueError`s, a run returns
the data of the successful pairs in the order of the configuration, having
tried each pair once, with an error if a pair was not successful, if and only
if no retrieval raises a `ValueError`. -/
theorem getProvider_isolates (ht : t.providerConf.status = .active)
    (hout : ∀ p ∈ pairs t.providerConf, ∀ c, connect t p.1 p.2 = .ok c → ∀ e,
      retrieve c = .error e →
        e = .openstackProviderError ∨ e = .kubernetesProviderError ∨ ∃ m, e = .valueError m)
    (parallel : Bool) :
    (∃ data error s,
      (getProvider retrieve t parallel).run {} = .ok ((t.providerConf, data, error), s) ∧
      data = (pairs t.providerConf).filterMap (produced retrieve t) ∧
      s.attempts = allAttempts t ∧
      ((∃ p ∈ pairs t.providerConf, produced retrieve t p = none) → error = true)) ↔
    ∀ p ∈ pairs t.providerConf, ∀ c, connect t p.1 p.2 = .ok c →
      ∀ m, retrieve c ≠ .error (.valueError m) := by
  constructor
  · rintro ⟨data, error, s, hrun, -⟩ p hp c hc m hm
    obtain ⟨hh, -⟩ := (getProvider_eq_ok retrieve ht).mp hrun
    rcases hh c (mem_connections.mpr ⟨p, hp, hc⟩) _ hm with h | h | ⟨_, h⟩ <;> cases h
  · intro hno
    have hh : ∀ c ∈ connections t, ∀ e, retrieve c = .error e → Handled e := fun c hc e he => by
      obtain ⟨p, hp, hpc⟩ := mem_connections.mp hc
      rcases hout p hp c hpc e he with rfl | rfl | ⟨m, rfl⟩
      · exact .inl rfl
      · exact .inr (.inl rfl)
      · exact absurd he (hno p hp c hpc m)
    refine ⟨_, _, _, (getProvider_eq_ok retrieve ht).mpr ⟨hh, rfl⟩, rfl, rfl, ?_⟩
    rintro ⟨p, hp, hnone⟩
    exact List.any_eq_true.mpr ⟨p, hp, by rw [hnone]; rfl⟩

/-- A world in which the clouds refuse the project `cms`. -/
def refusingWorld : World :=
  { kubernetesWorld (.ok "token") unreachable with
    connectOpenstack := fun args => .ok (if args.projectId = "cms" then
      { bareCloud "cms" with currentProjectId := .error .unauthorized } else bareCloud args.projectId) }

/-- Of two projects the cloud refuses one: the data of the other is returned. -/
theorem getProvider_isolates_sample : ∃ data error s,
    (getProvider (getProviderData refusingWorld) twoProjects true).run {} =
      .ok ((twoProjects.providerConf, data, error), s) ∧
    data.map (·.project.uuid) = ["atlas"] ∧ s.attempts = allAttempts twoProjects ∧ error = true := by
  have hout : ∀ p ∈ pairs twoProjects.providerConf, ∀ c, connect twoProjects p.1 p.2 = .ok c →
      ∀ e, getProviderData refusingWorld c = .error e → e = .openstackProviderError := by
    intro p hp c hc e he
    rcases List.mem_pair.mp hp with rfl | rfl <;> cases hc <;> cases he
    rfl
  obtain ⟨data, error, s, hrun, hdata, hs, herr⟩ :=
    (getProvider_isolates (getProviderData refusingWorld) (t := twoProjects) rfl
      (fun p hp c hc e he => .inl (hout p hp c hc e he)) true).mpr
      fun p hp c hc m hm => by cases hout p hp c hc _ hm
  exact ⟨data, error, s, hrun, by rw [hdata]; rfl, hs, herr ⟨_, List.mem_cons_self, rfl⟩⟩

/-- A world in which no token can be retrieved. -/
def noTokenWorld : World := kubernetesWorld (.error (.valueError "oidc-agent not running")) unreachable

/-- The `ValueError` of the only connection aborts the run. -/
theorem getProvider_aborts :
    (∀ p ∈ pairs sampleConf, ∀ c, connect sampleThread p.1 p.2 = .ok c → ∀ e,
      getProviderData noTokenWorld c = .error e →
        e = .openstackProviderError ∨ e = .kubernetesProviderError ∨ ∃ m, e = .valueError m) ∧
    ¬ ∃ data error s,
      (getProvider (getProviderData noTokenWorld) sampleThread true).run {} =
        .ok ((sampleConf, data, error), s) := by
  constructor
  · intro p hp c hc e he
    rw [List.mem_singleton.mp hp] at hc
    cases hc
    cases he
    exact .inr (.inr ⟨_, rfl⟩)
  · rintro ⟨data, error, s, h⟩
    cases h

/-! ## Status -/

section
variable {validate : ProviderCreateExtended → Except PyError Unit} {providerConf : Provider}
  {data : List ConnectionData} {error : Bool} {provider : ProviderCreateExtended}

/-- The provider of a configuration with merged components. -/
def providerOf (providerConf : Provider)
    (c : List IdentityProviderCreateExtended × List ProjectCreate × List RegionCreateExtended)
    (error : Bool) : ProviderCreateExtended :=
  { name := providerConf.name
    type := providerConf.type
    isPublic := providerConf.isPublic
    supportEmails := providerConf.supportEmails
    status := if error then .limited else providerConf.status
    identityProviders := c.1
    projects := c.2.1
    regions := c.2.2 }

theorem createProvider_merged {siblings : List Sibling}
    {c : List IdentityProviderCreateExtended × List ProjectCreate × List RegionCreateExtended}
    (hsiblings : data.mapM retrieveComponents = .ok siblings) (hc : mergeComponents siblings = .ok c) :
    createProvider validate providerConf data error =
      (validate (providerOf providerConf c error)).map fun _ => providerOf providerConf c error := by
  rw [createProvider, hsiblings, ok_bind, hc]
  rfl

theorem createProvider_eq_ok : createProvider validate providerConf data error = .ok provider ↔
    ∃ siblings c, data.mapM retrieveComponents = .ok siblings ∧ mergeComponents siblings = .ok c ∧
      validate provider = .ok () ∧ provider = providerOf providerConf c error := by
  simp only [createProvider, bind_eq_ok, pure_eq_ok]
  constructor
  · rintro ⟨siblings, hsiblings, c, hc, _, hvalid, rfl⟩
    exact ⟨siblings, c, hsiblings, hc, hvalid, rfl⟩
  · rintro ⟨siblings, c, hsiblings, hc, hvalid, rfl⟩
    exact ⟨siblings, hsiblings, c, hc, (), hvalid, rfl⟩

theorem createProvider_status (h : createProvider validate providerConf data error = .ok provider) :
    provider.status = if error then .limited else providerConf.status := by
  obtain ⟨_, c, -, -, -, rfl⟩ := createProvider_eq_ok.mp h
  rfl

end

variable {validate : ProviderCreateExtended → Except PyError Unit}

/-- The provider built from a run is `limited` if and only if some pair
produced no data or recorded an error while it produced some, and has its
configured status otherwise, exactly when some pair produced no data or none
of the data has a recorded error. -/
theorem status_limited_iff (ht : t.providerConf.status = .active) (parallel : Bool)
    {data : List ConnectionData} {error : Bool} {s : Log Attempt} {provider : ProviderCreateExtended}
    (hrun : (getProvider retrieve t parallel).run {} = .ok ((t.providerConf, data, error), s))
    (hp : createProvider validate t.providerConf data error = .ok provider) :
    ((provider.status = .limited ↔ ∃ p ∈ pairs t.providerConf, produced retrieve t p = none ∨
        ∃ d, produced retrieve t p = some d ∧ d.error = true) ∧
      (¬ (∃ p ∈ pairs t.providerConf, produced retrieve t p = none ∨
        ∃ d, produced retrieve t p = some d ∧ d.error = true) →
        provider.status = t.providerConf.status)) ↔
    (∃ p ∈ pairs t.providerConf, produced retrieve t p = none) ∨
      ∀ p ∈ pairs t.providerConf, ∀ d, produced retrieve t p = some d → d.error = false := by
  obtain ⟨-, hres⟩ := (getProvider_eq_ok retrieve ht).mp hrun
  have herr : error = true ↔ ∃ p ∈ pairs t.providerConf, produced retrieve t p = none := by
    cases hres
    simp only [List.any_eq_true, Option.isNone_iff_eq_none]
  have hlim : provider.status = .limited ↔ error = true := by
    rw [createProvider_status hp]
    cases error
    · simp [ht]
    · simp
  rw [hlim, herr]
  constructor
  · rintro ⟨h, -⟩
    by_cases hnone : ∃ p ∈ pairs t.providerConf, produced retrieve t p = none
    · exact .inl hnone
    · refine .inr fun p hp d hd => Bool.eq_false_iff.mpr fun hde => hnone ?_
      exact h.mpr ⟨p, hp, .inr ⟨d, hd, hde⟩⟩
  · intro hcond
    have hiff : (∃ p ∈ pairs t.providerConf, produced retrieve t p = none) ↔
        ∃ p ∈ pairs t.providerConf, produced retrieve t p = none ∨
          ∃ d, produced retrieve t p = some d ∧ d.error = true := by
      refine ⟨fun ⟨p, hp, h⟩ => ⟨p, hp, .inl h⟩, ?_⟩
      rintro ⟨p, hp, h | ⟨d, hd, hde⟩⟩
      · exact ⟨p, hp, h⟩
      · rcases hcond with hnone | hall
        · exact hnone
        · rw [hall p hp d hd] at hde
          cases hde
    refine ⟨hiff, fun hno => ?_⟩
    rw [createProvider_status hp, if_neg]
    rw [herr, hiff]
    exact hno

end

theorem status_limited_iff_sample : ∃ data error s provider,
    (getProvider (getProviderData refusingWorld) twoProjects true).run {} =
      .ok ((twoProjects.providerConf, data, error), s) ∧
    createProvider (fun _ => .ok ()) twoProjects.providerConf data error = .ok provider ∧
    provider.status = .limited := by
  have hrun : ∃ data error s provider,
      (getProvider (getProviderData refusingWorld) twoProjects true).run {} =
        .ok ((twoProjects.providerConf, data, error), s) ∧
      createProvider (fun _ => .ok ()) twoProjects.providerConf data error = .ok provider :=
    ⟨_, _, _, _, rfl, rfl⟩
  obtain ⟨data, error, s, provider, hrun, hp⟩ := hrun
  -- the cloud refuses the first project
  have hnone : ∃ p ∈ pairs twoProjects.providerConf,
      produced (getProviderData refusingWorld) twoProjects p = none := ⟨_, List.mem_cons_self, rfl⟩
  obtain ⟨⟨-, hlimited⟩, -⟩ :=
    (status_limited_iff (getProviderData refusingWorld) rfl true hrun hp).mpr (.inl hnone)
  exact ⟨data, error, s, provider, hrun, hp, hlimited (hnone.imp fun _ h => h.imp_right .inl)⟩

/-- The API of the cluster cannot be reached: the data records the error, but
the provider is not `limited`. -/
theorem error_not_reported : ∃ data error s provider,
    (getProvider (getProviderData (kubernetesWorld (.ok "token") unreachable)) sampleThread true).run {} =
      .ok ((sampleConf, data, error), s) ∧
    createProvider (fun _ => .ok ()) sampleConf data error = .ok provider ∧
    ¬ (provider.status = .limited ↔ ∃ p ∈ pairs sampleConf,
      produced (getProviderData (kubernetesWorld (.ok "token") unreachable)) sampleThread p = none ∨
      ∃ d, produced (getProviderData (kubernetesWorld (.ok "token") unreachable)) sampleThread p =
        some d ∧ d.error = true) := by
  refine ⟨_, _, _, _, rfl, rfl, fun h => ?_⟩
  have hlim := h.mpr ⟨_, List.mem_singleton_self _, .inr ⟨_, rfl, rfl⟩⟩
  cases hlim

end FRF.Proof
