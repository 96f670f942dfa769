import FedRegFeeder.Impl.Utils.Components
import FedRegFeeder.Spec.Components
import FedRegFeeder.Proof.Providers.Core

/-!
# What a connection retrieves

The quotas of a service that a connection returns are the limits and the usage
of the project and, if one is configured, a per-user quota, all on the project
the cloud knows the connection by (`getProviderData_quotas`).
-/

namespace FRF.Spec

open FRF.Impl

/-- The services of a kind in retrieved data. -/
def dataServices (d : ConnectionData) : (k : ServiceKind) → List k.Class
  | .blockStorage => d.blockStorageServices
  | .compute => d.computeServices
  | .identity => d.identityServices
  | .network => d.networkServices
  | .objectStore => d.objectStoreServices

/-- The limits and the usage of a project. -/
structure QuotaPair (project : String) (q : QuotaCreateExtended × QuotaCreateExtended) : Prop where
  project₁ : q.1.project = project
  plain : q.1.usage = false ∧ q.1.perUser = false
  project₂ : q.2.project = project
  usage : q.2.usage = true ∧ q.2.perUser = false

/-- The per-user limits of a project, for any kind of service. -/
def Limits.Has (l : Limits) (q : PerUserQuota) : Prop :=
  l.blockStorage = some q ∨ l.compute = some q ∨ l.network = some q ∨ l.objectStore = some q

/-- The quotas of a service of a project. -/
def ServiceQuotas (project : String) (limits : Limits) (l : List QuotaCreateExtended) : Prop :=
  ∃ q, QuotaPair project q ∧ (l = withPerUser q none ∨
    ∃ limit, Limits.Has limits limit ∧ l = withPerUser q (some (limit.on project)))

end FRF.Spec

namespace FRF.Proof

open FRF.Impl FRF.Spec
open Py (PyError SdkError)
open Framework

/-! ## OpenStack -/

section
open OpenstackData

variable {conn : Connection}

theorem yields_call {α : Type} (r : Except SdkError α) : Yields (call r) fun a => r = .ok a :=
  Yields.lift fun a h => by
    cases r with
    | error e => cases h
    | ok b => cases h; rfl

/-- A pair of quotas on the current project. -/
def CurrentPair (conn : Connection) (q : QuotaCreateExtended × QuotaCreateExtended) : Prop :=
  ∃ project, conn.currentProjectId = .ok project ∧ QuotaPair project q

theorem yields_getBlockStorageQuotas : Yields (getBlockStorageQuotas conn) (CurrentPair conn) :=
  (yields_call _).bind fun project hp => Yields.bind' fun _ =>
    Yields.pure ⟨project, hp, rfl, ⟨rfl, rfl⟩, rfl, rfl, rfl⟩

theorem yields_getComputeQuotas : Yields (getComputeQuotas conn) (CurrentPair conn) :=
  (yields_call _).bind fun project hp => Yields.bind' fun _ =>
    Yields.pure ⟨project, hp, rfl, ⟨rfl, rfl⟩, rfl, rfl, rfl⟩

theorem yields_getNetworkQuotas : Yields (getNetworkQuotas conn) (CurrentPair conn) :=
  (yields_call _).bind fun project hp => Yields.bind' fun _ =>
    Yields.pure ⟨project, hp, rfl, ⟨rfl, rfl⟩, rfl, rfl, rfl⟩

theorem yields_getS3Quotas : Yields (getS3Quotas conn) (CurrentPair conn) :=
  (yields_call _).bind fun project hp =>
    Yields.pure ⟨project, hp, rfl, ⟨rfl, rfl⟩, rfl, rfl, rfl⟩

/-- The quotas of a service on the current project. -/
def CurrentQuotas (conn : Connection) (limits : Limits) (l : List QuotaCreateExtended) : Prop :=
  ∃ project, conn.currentProjectId = .ok project ∧ ServiceQuotas project limits l

theorem yields_serviceQuotas {quotas : Retrieve (QuotaCreateExtended × QuotaCreateExtended)}
    (hq : Yields quotas (CurrentPair conn)) {limits : Limits} {limit : Option PerUserQuota}
    (hl : ∀ q, limit = some q → Limits.Has limits q) :
    Yields (serviceQuotas conn quotas limit) (CurrentQuotas conn limits) := by
  refine hq.bind fun q ⟨project, hp, hq⟩ => ?_
  cases limit with
  | none => exact Yields.pure ⟨project, hp, q, hq, .inl rfl⟩
  | some limit =>
    refine (yields_call _).bind fun project' hp' => Yields.pure ⟨project, hp, q, hq, .inr ?_⟩
    rw [hp] at hp'
    cases hp'
    exact ⟨limit, hl limit rfl, rfl⟩

variable {projectConf : Project}

theorem yields_getBlockStorageService : Yields (getBlockStorageService conn projectConf) fun o =>
    ∀ s ∈ o, CurrentQuotas conn projectConf.perUserLimits s.quotas := by
  refine Yields.bind' fun endpoint => ?_
  cases endpoint with
  | none => exact Yields.pure fun _ h => nomatch h
  | some endpoint =>
    refine (yields_serviceQuotas yields_getBlockStorageQuotas fun _ h => .inl h).bind fun l hl => ?_
    exact Yields.pure fun s hs => by cases hs; exact hl

theorem yields_getComputeService {imageTags : List String} :
    Yields (getComputeService conn projectConf imageTags) fun o =>
      ∀ s ∈ o, CurrentQuotas conn projectConf.perUserLimits s.quotas := by
  refine Yields.bind' fun endpoint => ?_
  cases endpoint with
  | none => exact Yields.pure fun _ h => nomatch h
  | some endpoint =>
    refine Yields.bind' fun flavors => Yields.bind' fun images => ?_
    refine (yields_serviceQuotas yields_getComputeQuotas fun _ h => .inr (.inl h)).bind
      fun l hl => ?_
    exact Yields.pure fun s hs => by cases hs; exact hl

theorem yields_getNetworkService {networkTags : List String} :
    Yields (getNetworkService conn projectConf networkTags) fun o =>
      ∀ s ∈ o, CurrentQuotas conn projectConf.perUserLimits s.quotas := by
  refine Yields.bind' fun endpoint => ?_
  cases endpoint with
  | none => exact Yields.pure fun _ h => nomatch h
  | some endpoint =>
    refine Yields.bind' fun networks => ?_
    refine (yields_serviceQuotas yields_getNetworkQuotas fun _ h => .inr (.inr (.inl h))).bind
      fun l hl => ?_
    exact Yields.pure fun s hs => by cases hs; exact hl

theorem yields_getS3Services {regionName : String} :
    Yields (getS3Services conn projectConf regionName) fun l =>
      ∀ s ∈ l, CurrentQuotas conn projectConf.perUserLimits s.quotas := by
  refine Yields.bind' fun catalog => ?_
  refine Yields.mapM (P := fun _ => True) (fun _ _ => trivial) fun endpoint _ => ?_
  refine (yields_serviceQuotas yields_getS3Quotas fun _ h => .inr (.inr (.inr h))).bind
    fun l hl => ?_
  exact Yields.pure hl

/-- Data of the given configuration and issuer, in which the quotas of every
service are those of a project that `P` holds of. -/
def DataOf (providerConf : Provider) (issuer : Issuer) (limits : Limits) (P : String → Prop)
    (d : ConnectionData) : Prop :=
  d.providerConf = providerConf ∧ d.issuer = issuer ∧
    ∀ k, ∀ s ∈ dataServices d k, Service.quotas s = [] ∨
      ∃ project, P project ∧ ServiceQuotas project limits (Service.quotas s)

theorem DataOf.imp {providerConf : Provider} {issuer : Issuer} {limits : Limits}
    {P Q : String → Prop} {d : ConnectionData} (h : DataOf providerConf issuer limits P d)
    (hPQ : ∀ project, P project → Q project) : DataOf providerConf issuer limits Q d := by
  refine ⟨h.1, h.2.1, fun k s hs => (h.2.2 k s hs).imp_right ?_⟩
  rintro ⟨project, hproject, hq⟩
  exact ⟨project, hPQ project hproject, hq⟩

theorem yields_openstack {providerConf : Provider} {imageTags networkTags : List String}
    {issuer : Issuer} {region : Region} :
    Yields (retrieveInfo conn providerConf imageTags networkTags issuer region projectConf)
      (DataOf providerConf issuer projectConf.perUserLimits (conn.currentProjectId = .ok ·)) := by
  refine Yields.mapError (Yields.bind' fun project => ?_)
  refine yields_getBlockStorageService.bind fun bs hbs => ?_
  refine yields_getComputeService.bind fun cs hcs => ?_
  refine yields_getNetworkService.bind fun ns hns => ?_
  refine yields_getS3Services.bind fun os hos => Yields.bind' fun error => Yields.pure ?_
  refine ⟨rfl, rfl, fun k => ?_⟩
  cases k with
  | blockStorage => exact fun s hs => .inr (hbs s (Option.mem_toList.mp hs))
  | compute => exact fun s hs => .inr (hcs s (Option.mem_toList.mp hs))
  | identity => exact fun s _ => .inl rfl
  | network => exact fun s hs => .inr (hns s (Option.mem_toList.mp hs))
  | objectStore => exact fun s hs => .inr (hos s hs)

end

/-! ## Kubernetes -/

section
open KubernetesData

theorem getQuotas_eq_ok {cluster : Cluster} {project : String}
    {q : (QuotaCreateExtended × QuotaCreateExtended) × (QuotaCreateExtended × QuotaCreateExtended)}
    (h : getQuotas cluster project = .ok q) : QuotaPair project q.1 ∧ QuotaPair project q.2 := by
  simp only [getQuotas, bind_eq_ok, pure_eq_ok] at h
  obtain ⟨_, -, _, -, rfl⟩ := h
  exact ⟨⟨rfl, ⟨rfl, rfl⟩, rfl, rfl, rfl⟩, ⟨rfl, ⟨rfl, rfl⟩, rfl, rfl, rfl⟩⟩

theorem serviceQuotas_map {project : String} {limits : Limits} {limit : Option PerUserQuota}
    {q : QuotaCreateExtended × QuotaCreateExtended} (hq : QuotaPair project q)
    (hl : ∀ l, limit = some l → Limits.Has limits l) :
    ServiceQuotas project limits (withPerUser q (limit.map (·.on project))) := by
  cases limit with
  | none => exact ⟨q, hq, .inl rfl⟩
  | some l => exact ⟨q, hq, .inr ⟨l, hl l rfl, rfl⟩⟩

theorem getServices_eq_ok {cluster : Cluster} {project : String} {names : ServiceNames}
    {authUrl : String} {limits : Limits}
    {s : BlockStorageServiceCreateExtended × ComputeServiceCreateExtended}
    (h : getServices cluster project names authUrl limits = .ok s) :
    ServiceQuotas project limits s.1.quotas ∧ ServiceQuotas project limits s.2.quotas := by
  simp only [getServices, bind_eq_ok, pure_eq_ok] at h
  obtain ⟨q, hq, _, -, rfl⟩ := h
  obtain ⟨hc, hb⟩ := getQuotas_eq_ok hq
  exact ⟨serviceQuotas_map hb fun _ h => .inl h, serviceQuotas_map hc fun _ h => .inr (.inl h)⟩

theorem yields_kubernetes {names : ServiceNames} {cluster : Cluster} {providerConf : Provider}
    {issuer : Issuer} {projectConf : Project} :
    Yields (retrieveInfo names cluster providerConf issuer projectConf)
      (DataOf providerConf issuer projectConf.perUserLimits (projectConf.id = ·)) := by
  refine Yields.bind' fun error => ?_
  -- data without any service but the identity service
  have hno : ∀ e, DataOf providerConf issuer projectConf.perUserLimits (projectConf.id = ·)
      { error := e, providerConf, issuer, project := { name := projectConf.id, uuid := projectConf.id }
        identityServices := [{ endpoint := providerConf.authUrl, name := .kubernetes }] } := by
    refine fun e => ⟨rfl, rfl, fun k => ?_⟩
    cases k with
    | identity => exact fun _ _ => .inl rfl
    | blockStorage | compute | network | objectStore => exact fun _ h => nomatch h
  simp only
  split
  · rename_i bs cs hs
    obtain ⟨hb, hc⟩ := getServices_eq_ok hs
    refine Yields.pure ⟨rfl, rfl, fun k => ?_⟩
    cases k with
    | blockStorage => exact List.forall_mem_singleton.mpr (.inr ⟨_, rfl, hb⟩)
    | compute => exact List.forall_mem_singleton.mpr (.inr ⟨_, rfl, hc⟩)
    | identity => exact fun _ _ => .inl rfl
    | network | objectStore => exact fun _ h => nomatch h
  · exact Yields.bind' fun _ => Yields.bind' fun _ => Yields.bind' fun e => Yields.pure (hno e)
  · exact Yields.bind' fun _ => Yields.bind' fun e => Yields.pure (hno e)
  · exact Yields.throw _

end

/-! ## Connections -/

/-- The project by which the cloud knows a connection. -/
def cloudProject (w : World) (c : ConnectionThread) : Option String := do
  let p ← c.providerConf.projects.head?
  match c.providerConf.kind with
  | .openstack .. =>
    let r ← c.providerConf.regions.head?
    let a ← c.providerConf.identityProviders.head?
    let conn ← (w.connectOpenstack
      (OpenstackData.connectArgs c.providerConf c.issuer r p a)).toOption
    conn.currentProjectId.toOption
  | .kubernetes _ => some p.id

theorem yields_assert (c : Bool) (msg : String) : Yields (assert c msg) fun _ => c = true := by
  cases c
  · exact Yields.throw _
  · exact Yields.pure rfl

/-- The configuration of a connection has one region, one project and one
authentication method. -/
theorem yields_checkConf (providerConf : Provider) : Yields (checkConf providerConf) fun q =>
    providerConf.regions = [q.1] ∧ providerConf.projects = [q.2.1] ∧
      providerConf.identityProviders = [q.2.2] := by
  refine (yields_assert _ _).bind fun _ hr => (yields_assert _ _).bind fun _ hp =>
    (yields_assert _ _).bind fun _ ha => ?_
  simp only [decide_eq_true_eq, List.length_eq_one_iff] at hr hp ha
  obtain ⟨r, hr⟩ := hr
  obtain ⟨p, hp⟩ := hp
  obtain ⟨a, ha⟩ := ha
  simp only [hr, hp, ha, Py.index0]
  exact fun _ _ _ h => by cases h; exact ⟨rfl, rfl, rfl⟩

/-- What a connection to an OpenStack provider retrieves. -/
theorem getProviderData_openstack {w : World} {c : ConnectionThread} {d : ConnectionData}
    {imageTags networkTags : List String} (hkind : c.providerConf.kind = .openstack imageTags networkTags)
    (h : getProviderData w c = .ok d) {Q : ConnectionData → Prop}
    (hQ : ∀ r p a conn, c.providerConf.regions = [r] → c.providerConf.projects = [p] →
      c.providerConf.identityProviders = [a] →
      w.connectOpenstack (OpenstackData.connectArgs c.providerConf c.issuer r p a) = .ok conn →
      Yields (OpenstackData.retrieveInfo conn c.providerConf imageTags networkTags c.issuer r p) Q) :
    Q d := by
  simp only [getProviderData, map_eq_ok, hkind] at h
  obtain ⟨⟨d, e⟩, hrun, rfl⟩ := h
  have hy : Yields (OpenstackData.init w.connectOpenstack c.providerConf imageTags networkTags
      c.issuer) Q :=
    Yields.mapError ((yields_checkConf c.providerConf).bind fun q ⟨hr, hp, ha⟩ =>
      (Yields.lift fun conn hconn => hconn).bind fun conn hconn => hQ _ _ _ conn hr hp ha hconn)
  exact hy _ _ _ hrun

/-- What a connection to a Kubernetes provider retrieves. -/
theorem getProviderData_kubernetes {w : World} {c : ConnectionThread} {d : ConnectionData}
    {caPath : Option String} (hkind : c.providerConf.kind = .kubernetes caPath)
    (h : getProviderData w c = .ok d) {Q : ConnectionData → Prop}
    (hQ : ∀ cluster p, c.providerConf.projects = [p] →
      Yields (KubernetesData.retrieveInfo w.serviceNames cluster c.providerConf c.issuer p) Q) :
    Q d := by
  simp only [getProviderData, map_eq_ok, hkind] at h
  obtain ⟨⟨d, e⟩, hrun, rfl⟩ := h
  have hy : Yields (KubernetesData.init w.serviceNames w.agent w.connectKubernetes
      c.providerConf caPath c.issuer) Q :=
    Yields.mapError ((yields_checkConf c.providerConf).bind fun q ⟨_, hp, _⟩ =>
      Yields.bind' fun token => hQ _ _ hp)
  exact hy _ _ _ hrun

/-- What a connection retrieves is about its configuration and its issuer, and
the quotas of each service are on the project the cloud knows it by. -/
theorem getProviderData_eq_ok {w : World} {c : ConnectionThread} {d : ConnectionData}
    {p : Project} (hp : c.providerConf.projects = [p]) (h : getProviderData w c = .ok d) :
    DataOf c.providerConf c.issuer p.perUserLimits (cloudProject w c = some ·) d := by
  cases hkind : c.providerConf.kind with
  | openstack imageTags networkTags =>
    refine getProviderData_openstack hkind h fun r p' a conn hr hp' ha hconn => ?_
    rw [hp] at hp'
    cases hp'
    refine yields_openstack.imp fun d hd => DataOf.imp hd fun project hproject => ?_
    simp only [cloudProject, hkind, hp, hr, ha, List.head?_cons, hconn, hproject, Option.bind_eq_bind,
      Option.bind_some, Except.toOption]
  | kubernetes caPath =>
    refine getProviderData_kubernetes hkind h fun cluster p' hp' => ?_
    rw [hp] at hp'
    cases hp'
    refine yields_kubernetes.imp fun d hd => DataOf.imp hd fun project hproject => ?_
    simp only [cloudProject, hkind, hp, List.head?_cons, hproject, Option.bind_eq_bind,
      Option.bind_some]

/-- What a connection contributes is about its region, and has the services it
retrieved. -/
theorem services_retrieveComponents {d : ConnectionData} {s : Sibling} {r : Region}
    (hr : d.providerConf.regions = [r]) (h : retrieveComponents d = .ok s) :
    s.2.2.name = r.name ∧ ∀ k, services s.2.2 k = dataServices d k := by
  simp only [retrieveComponents, bind_eq_ok, pure_eq_ok, Py.index0_eq_ok, hr, List.head?_cons,
    Option.some.injEq, exists_eq_left'] at h
  obtain ⟨a, -, g, -, sla, -, p, -, rfl⟩ := h
  exact ⟨rfl, fun k => by cases k <;> rfl⟩

/-- A connection contributes one user group. -/
theorem group_retrieveComponents {d : ConnectionData} {s : Sibling}
    (h : retrieveComponents d = .ok s) : ∃ g, s.1.userGroups = [g] := by
  simp only [retrieveComponents, bind_eq_ok, pure_eq_ok] at h
  obtain ⟨_, -, _, -, g, -, _, -, _, -, rfl⟩ := h
  exact ⟨_, rfl⟩

end FRF.Proof
