import FedRegFeeder.Framework.Marks
import FedRegFeeder.Proof.Providers.Compute
import FedRegFeeder.Proof.Providers.Namespace
import FedRegFeeder.Proof.Providers.Networks

/-!
# What is retrieved from a cloud

A connection that returns its data has retrieved what the cloud answers
(`Retrieves`) or the cluster (`RetrievesNamespace`), and has raised its error
flag if and only if part of that is missing (`Incomplete`): see
`getProviderData_complete`.
-/

namespace FRF.Spec

open FRF.Impl
open Py (PyError SdkError)

/-- The endpoint of a service, if the cloud has one. -/
def endpointOf (r : Except SdkError (Option String)) : Option String :=
  r.toOption.join.filter (· ≠ "")

/-- Who may use a network. -/
def networkAccess (conn : Connection) (n : SdkNetwork) : Access :=
  if n.isShared then .shared else .priv conn.currentProjectId.toOption.toList

/-- The public S3 endpoints of a region. -/
def s3Endpoints (catalog : List CatalogService) (regionName : String) : List CatalogEndpoint :=
  (catalog.filter fun x => x.type = "s3" && x.name = "swift_s3").flatMap
    fun service => service.endpoints.filter fun x => x.interface = "public" && x.region = regionName

/-- What the cloud answers to the request for the active networks with the tags,
for all of them when there are no tags. -/
def networksOf (conn : Connection) (tags : List String) : Generator SdkNetwork :=
  conn.networks (if tags.length = 0 then none else some tags)

/-- Part of what a connection retrieves is missing: a service that the
catalogue does not list, the quotas of the block storage service, or the
projects of a private flavor. -/
inductive Incomplete (conn : Connection) : Prop
  | blockStorage : conn.blockStorageEndpoint = .error .endpointNotFound → Incomplete conn
  | compute : conn.computeEndpoint = .error .endpointNotFound → Incomplete conn
  | network : conn.networkEndpoint = .error .endpointNotFound → Incomplete conn
  | quotas {project : String} : (endpointOf conn.blockStorageEndpoint).isSome →
    conn.currentProjectId = .ok project →
    conn.blockStorageQuotaSet project = .error .forbiddenException → Incomplete conn
  | flavor {f : SdkFlavor} : (endpointOf conn.computeEndpoint).isSome → f ∈ conn.flavors.items →
    f.isPublic = false → (conn.flavorAccess f).fails = some .forbiddenException → Incomplete conn

/-- Data that is what the cloud answers to a connection for the region, with
the given tags. -/
structure Retrieves (conn : Connection) (authUrl : String) (region : Region)
    (imageTags networkTags : List String) (d : ConnectionData) : Prop where
  project : ∃ id p, conn.currentProjectId = .ok id ∧ conn.getProject id = .ok p ∧
    d.project = { uuid := p.id, name := p.name, description := p.description.getD "" }
  identity : d.identityServices = [{ endpoint := authUrl, name := .openstackKeystone }]
  blockStorage : d.blockStorageServices.map (·.endpoint) =
    (endpointOf conn.blockStorageEndpoint).toList.map Py.dirname
  compute : d.computeServices.map (·.endpoint) = (endpointOf conn.computeEndpoint).toList
  resources : ∀ s ∈ d.computeServices, ServiceOf conn imageTags s
  network : d.networkServices.map (·.endpoint) = (endpointOf conn.networkEndpoint).toList
  networks : ∀ s ∈ d.networkServices, s.networks.map (fun n => (n.uuid, n.access)) =
    (networksOf conn networkTags).items.map fun n => (n.id, networkAccess conn n)
  objectStore : ∃ catalog, conn.serviceCatalog = .ok catalog ∧
    d.objectStoreServices.map (·.endpoint) = (s3Endpoints catalog region.name).map (·.url)

/-- The cluster a connection reaches, if it gets a token. -/
def clusterOf (w : World) (c : ConnectionThread) (caPath : Option String) : Except PyError Cluster := do
  let a ← Py.index0 c.providerConf.identityProviders
  let token ← retrieveToken w.agent c.issuer.endpoint a.audience
  return w.connectKubernetes c.providerConf.authUrl token caPath

/-- Data that is what a cluster answers about the namespace of the project: its
services, or none if a request to the API fails, which the error flag tells. -/
structure RetrievesNamespace (names : ServiceNames) (cluster : Cluster) (authUrl : String)
    (p : Project) (d : ConnectionData) : Prop where
  project : d.project = { uuid := p.id, name := p.id }
  identity : d.identityServices = [{ endpoint := authUrl, name := .kubernetes }]
  network : d.networkServices = []
  objectStore : d.objectStoreServices = []
  services : (∃ objects classes b c, ClusterLists cluster p.id objects classes ∧
      ServicesOf names authUrl p objects classes b c ∧
      d.error = false ∧ d.blockStorageServices = [b] ∧ d.computeServices = [c]) ∨
    ApiFails cluster p.id ∧ d.error = true ∧ d.blockStorageServices = [] ∧ d.computeServices = []

end FRF.Spec

namespace FRF.Proof

open FRF.Impl FRF.Impl.OpenstackData FRF.Spec
open Py (PyError SdkError)
open Framework

variable {conn : Connection}

/-! ## The error flag -/

theorem quiet_call {α : Type} (r : Except SdkError α) : Quiet (call r) := Quiet.lift _

theorem quiet_raiseEnd (fails : Option SdkError) : Quiet (raiseEnd fails) := by
  cases fails with
  | none => exact Quiet.pure _
  | some e => exact Quiet.throw _

theorem marks_forEach {α β : Type} {g : Generator α} {body : α → Retrieve β} {flag : α → Bool}
    (hf : ∀ a ∈ g.items, Marks (body a) fun _ b => b = flag a) :
    Marks (forEach g body) fun _ b => b = g.items.any flag :=
  (Marks.mapM hf).bind_quiet fun _ => (quiet_raiseEnd g.fails).bind fun _ => Quiet.pure _

theorem quiet_forEach {α β : Type} {g : Generator α} {body : α → Retrieve β}
    (hf : ∀ a ∈ g.items, Quiet (body a)) : Quiet (forEach g body) :=
  (Quiet.mapM hf).bind fun _ => (quiet_raiseEnd g.fails).bind fun _ => Quiet.pure _

theorem marks_getEndpoint (r : Except SdkError (Option String)) :
    Marks (getEndpoint r) fun _ b => b = true ↔ r = .error .endpointNotFound := by
  unfold getEndpoint
  split
  · exact Marks.bind_quiet (Marks.set ⟨fun _ => rfl, fun _ => rfl⟩) fun _ => Quiet.pure _
  · rename_i hr
    exact (quiet_call r).bind_marks fun _ => Marks.pure ⟨nofun, fun h => absurd h hr⟩

/-- The cloud forbids the connection to read the block storage quotas. -/
def QuotasForbidden (conn : Connection) : Prop :=
  ∃ project, conn.currentProjectId = .ok project ∧
    conn.blockStorageQuotaSet project = .error .forbiddenException

theorem marks_getBlockStorageQuotas :
    Marks (getBlockStorageQuotas conn) fun _ b => b = true ↔ QuotasForbidden conn := by
  refine Marks.bind ((quiet_call _).and (yields_call _)) fun project b hb => ?_
  obtain ⟨hproject, rfl⟩ := hb
  have hforbidden : QuotasForbidden conn ↔
      conn.blockStorageQuotaSet project = .error .forbiddenException := by
    simp only [QuotasForbidden, hproject, Except.ok.injEq, exists_eq_left']
  simp only [Bool.false_or, hforbidden]
  refine Marks.bind_quiet ?_ fun _ => Quiet.pure _
  unfold getBlockStorageQuotaSet
  split
  · rename_i hr
    exact Marks.bind_quiet (Marks.set ⟨fun _ => hr, fun _ => rfl⟩) fun _ => Quiet.pure _
  · rename_i hr
    exact (quiet_call _).imp fun _ b hb => ⟨fun h => absurd (hb.symm.trans h) nofun, fun h => absurd h hr⟩

/-- The quotas of a service raise the flag as its limits and usage do. -/
theorem marks_serviceQuotas {quotas : Retrieve (QuotaCreateExtended × QuotaCreateExtended)}
    {R : Bool → Prop} (hq : Marks quotas fun _ b => R b) (limits : Option PerUserQuota) :
    Marks (serviceQuotas conn quotas limits) fun _ b => R b := by
  refine hq.bind_quiet fun q => ?_
  cases limits with
  | none => exact Quiet.pure _
  | some limits => exact (quiet_call _).bind fun _ => Quiet.pure _

/-- The projects of the flavor cannot be listed. -/
def accessForbidden (conn : Connection) (f : SdkFlavor) : Bool :=
  !f.isPublic && (conn.flavorAccess f).fails = some .forbiddenException

theorem marks_flavorOf (f : SdkFlavor) :
    Marks (flavorOf conn f) fun _ b => b = accessForbidden conn f := by
  have hprojects : Marks (getFlavorProjects conn f) fun _ b =>
      b = decide ((conn.flavorAccess f).fails = some .forbiddenException) := by
    unfold getFlavorProjects
    dsimp only
    split
    · rename_i hfails
      exact Marks.bind_quiet (Marks.set (by rw [hfails]; rfl)) fun _ => Quiet.pure _
    · rename_i hfails
      refine (quiet_raiseEnd _).bind_marks fun _ => Marks.pure ?_
      rw [eq_comm, decide_eq_false_iff_not]
      exact hfails
  unfold flavorOf
  dsimp only
  split
  · rename_i hpublic
    rw [accessForbidden, hpublic]
    refine (Quiet.pure _).bind fun access => ?_
    split
    · exact (Quiet.pure _).bind fun _ => Quiet.pure _
    · exact (Quiet.lift _).bind fun _ => Quiet.pure _
  · rename_i hprivate
    rw [accessForbidden, Bool.eq_false_iff.mpr hprivate, Bool.not_false, Bool.true_and]
    refine Marks.bind_quiet (hprojects.bind_quiet fun _ => Quiet.pure _) fun access => ?_
    split
    · exact (Quiet.pure _).bind fun _ => Quiet.pure _
    · exact (Quiet.lift _).bind fun _ => Quiet.pure _

theorem marks_getFlavors :
    Marks (getFlavors conn) fun _ b => b = conn.flavors.items.any (accessForbidden conn) :=
  (marks_forEach fun f _ => marks_flavorOf f).bind_quiet fun _ => Quiet.pure _

theorem quiet_imageOf (i : SdkImage) : Quiet (imageOf conn i) := by
  have hprojects : Quiet (getImageProjects conn i) :=
    (quiet_forEach fun _ _ => Quiet.pure _).bind fun _ => Quiet.pure _
  unfold imageOf
  dsimp only
  split
  · exact Quiet.pure _
  · split
    · exact (hprojects.map _).bind fun _ => Quiet.pure _
    · exact Quiet.pure _

theorem quiet_getImages (tags : List String) : Quiet (getImages conn tags) := by
  have htag : ∀ osImages tag, Quiet (imagesWithTag conn osImages tag) :=
    fun _ _ => (quiet_forEach fun _ _ => Quiet.pure _).bind fun _ => Quiet.pure _
  unfold getImages
  split
  · exact (Quiet.foldlM htag _ _).bind fun _ => Quiet.mapM fun i _ => quiet_imageOf i
  · exact quiet_forEach fun i _ => quiet_imageOf i

theorem quiet_networkOf (proxy : Option PrivateNetProxy) (n : SdkNetwork) :
    Quiet (networkOf conn proxy n) := by
  unfold networkOf
  dsimp only
  split
  · exact Quiet.pure _
  · exact ((quiet_call _).map _).bind fun _ => Quiet.pure _

theorem quiet_getNetworks (proxy : Option PrivateNetProxy) (tags : List String) :
    Quiet (getNetworks conn proxy tags) :=
  quiet_forEach fun n _ => quiet_networkOf proxy n

/-! ## Services -/

section
variable {projectConf : Project}

theorem marks_getBlockStorageService : Marks (getBlockStorageService conn projectConf) fun o b =>
    o.map (·.endpoint) = (endpointOf conn.blockStorageEndpoint).map Py.dirname ∧
      (b = true ↔ conn.blockStorageEndpoint = .error .endpointNotFound ∨
        (endpointOf conn.blockStorageEndpoint).isSome ∧ QuotasForbidden conn) := by
  refine Marks.bind ((marks_getEndpoint _).and (yields_getEndpoint _)) fun endpoint b hb => ?_
  obtain ⟨he, hb⟩ := hb
  rw [← endpointOf] at he
  rw [← he]
  cases endpoint with
  | none => exact Marks.pure ⟨rfl, by rw [Bool.or_false, hb]; exact (or_iff_left nofun).symm⟩
  | some endpoint =>
    refine (marks_serviceQuotas marks_getBlockStorageQuotas _).bind fun quotas b' hb' =>
      Marks.pure ⟨rfl, ?_⟩
    rw [Bool.or_false, Bool.or_eq_true, hb, hb']
    exact or_congr_right (and_iff_right rfl).symm

theorem marks_getComputeService {imageTags : List String} :
    Marks (getComputeService conn projectConf imageTags) fun o b =>
      (o.map (·.endpoint) = endpointOf conn.computeEndpoint ∧ ∀ s ∈ o, ServiceOf conn imageTags s) ∧
        (b = true ↔ conn.computeEndpoint = .error .endpointNotFound ∨
          (endpointOf conn.computeEndpoint).isSome ∧
            conn.flavors.items.any (accessForbidden conn) = true) := by
  refine Marks.and ?_ yields_computeService
  refine Marks.bind ((marks_getEndpoint _).and (yields_getEndpoint _)) fun endpoint b hb => ?_
  obtain ⟨he, hb⟩ := hb
  rw [← endpointOf] at he
  rw [← he]
  cases endpoint with
  | none => exact Marks.pure (by rw [Bool.or_false, hb]; exact (or_iff_left nofun).symm)
  | some endpoint =>
    refine marks_getFlavors.bind fun flavors b' hb' => ?_
    refine (quiet_getImages _).bind_marks fun images => ?_
    have hquotas : Quiet (getComputeQuotas conn) :=
      (quiet_call _).bind fun _ => (quiet_call _).bind fun _ => Quiet.pure _
    refine Quiet.bind_marks (marks_serviceQuotas hquotas _) fun quotas => Marks.pure ?_
    rw [Bool.or_false, Bool.or_eq_true, hb, hb']
    exact or_congr_right (and_iff_right rfl).symm

theorem yields_networkOf (proxy : Option PrivateNetProxy) (n : SdkNetwork) :
    Yields (networkOf conn proxy n) fun r => (r.uuid, r.access) = (n.id, networkAccess conn n) := by
  unfold networkOf
  rw [networkAccess]
  dsimp only
  split
  · exact Yields.pure rfl
  · refine Yields.bind ((yields_call _).map (Q := (· = Access.priv conn.currentProjectId.toOption.toList))
      fun project hp => by rw [hp]; rfl) ?_
    rintro _ rfl
    exact Yields.pure rfl

theorem marks_getNetworkService {networkTags : List String} :
    Marks (getNetworkService conn projectConf networkTags) fun o b =>
      (o.map (·.endpoint) = endpointOf conn.networkEndpoint ∧
        ∀ s ∈ o, s.networks.map (fun n => (n.uuid, n.access)) =
          (networksOf conn networkTags).items.map fun n => (n.id, networkAccess conn n)) ∧
        (b = true ↔ conn.networkEndpoint = .error .endpointNotFound) := by
  refine Marks.bind ((marks_getEndpoint _).and (yields_getEndpoint _)) fun endpoint b hb => ?_
  obtain ⟨he, hb⟩ := hb
  rw [← endpointOf] at he
  rw [← he]
  cases endpoint with
  | none => exact Marks.pure ⟨⟨rfl, nofun⟩, by rw [Bool.or_false, hb]⟩
  | some endpoint =>
    refine Marks.bind (Marks.and (quiet_getNetworks _ _) (yields_forEach fun n _ => yields_networkOf _ n))
      fun networks b' hb' => ?_
    obtain ⟨hnetworks, rfl⟩ := hb'
    have hquotas : Quiet (getNetworkQuotas conn) :=
      (quiet_call _).bind fun _ => (quiet_call _).bind fun _ => Quiet.pure _
    refine Quiet.bind_marks (marks_serviceQuotas hquotas _) fun quotas => Marks.pure ⟨⟨rfl, ?_⟩, ?_⟩
    · intro s hs
      cases hs
      rw [markDefaults_eq, List.map_map]
      exact hnetworks
    · rw [Bool.or_false, Bool.or_false, hb]

theorem marks_getS3Services {regionName : String} :
    Marks (getS3Services conn projectConf regionName) fun l b =>
      (∃ catalog, conn.serviceCatalog = .ok catalog ∧
        l.map (·.endpoint) = (s3Endpoints catalog regionName).map (·.url)) ∧ b = false := by
  refine Marks.and ?_ ?_
  · refine (quiet_call _).bind fun catalog => Quiet.mapM fun endpoint _ => ?_
    have hquotas : Quiet (getS3Quotas conn) := (quiet_call _).bind fun _ => Quiet.pure _
    exact Quiet.bind (marks_serviceQuotas hquotas _) fun _ => Quiet.pure _
  · refine (yields_call _).bind fun catalog hcatalog => ?_
    refine Yields.imp (P := fun l => l.map (·.endpoint) = (s3Endpoints catalog regionName).map (·.url))
      ?_ fun l hl => ⟨catalog, hcatalog, hl⟩
    exact Yields.mapM_map fun endpoint _ => Yields.bind' fun quotas => Yields.pure rfl

/-! ## The data -/

theorem marks_getProject : Marks (getProject conn) fun p b =>
    (∃ id q, conn.currentProjectId = .ok id ∧ conn.getProject id = .ok q ∧
      p = { uuid := q.id, name := q.name, description := q.description.getD "" }) ∧ b = false := by
  refine Marks.and ((quiet_call _).bind fun _ => (quiet_call _).bind fun _ => Quiet.pure _) ?_
  exact (yields_call _).bind fun id hid => (yields_call _).bind fun q hq =>
    Yields.pure ⟨id, q, hid, hq, rfl⟩

theorem incomplete_iff : Incomplete conn ↔
    (conn.blockStorageEndpoint = .error .endpointNotFound ∨
      (endpointOf conn.blockStorageEndpoint).isSome ∧ QuotasForbidden conn) ∨
    (conn.computeEndpoint = .error .endpointNotFound ∨
      (endpointOf conn.computeEndpoint).isSome ∧ conn.flavors.items.any (accessForbidden conn) = true) ∨
    conn.networkEndpoint = .error .endpointNotFound := by
  have hany : conn.flavors.items.any (accessForbidden conn) = true ↔ ∃ f ∈ conn.flavors.items,
      f.isPublic = false ∧ (conn.flavorAccess f).fails = some .forbiddenException := by
    simp only [List.any_eq_true, accessForbidden, Bool.and_eq_true, Bool.not_eq_true',
      decide_eq_true_eq]
  rw [hany]
  constructor
  · rintro (h | h | h | ⟨he, hproject, hset⟩ | ⟨he, hf, hprivate, hfails⟩)
    · exact .inl (.inl h)
    · exact .inr (.inl (.inl h))
    · exact .inr (.inr h)
    · exact .inl (.inr ⟨he, _, hproject, hset⟩)
    · exact .inr (.inl (.inr ⟨he, _, hf, hprivate, hfails⟩))
  · rintro ((h | ⟨he, _, hproject, hset⟩) | (h | ⟨he, _, hf, hprivate, hfails⟩) | h)
    · exact .blockStorage h
    · exact .quotas he hproject hset
    · exact .compute h
    · exact .flavor he hf hprivate hfails
    · exact .network h

variable {providerConf : Provider} {imageTags networkTags : List String} {issuer : Issuer}
  {region : Region}

theorem marks_retrieveInfo :
    Marks (retrieveInfo conn providerConf imageTags networkTags issuer region projectConf) fun d b =>
      Retrieves conn providerConf.authUrl region imageTags networkTags d ∧
        (b = true ↔ Incomplete conn) := by
  refine Marks.mapError (marks_getProject.bind fun project b hb => ?_)
  refine marks_getBlockStorageService.bind fun bs b₁ h₁ => ?_
  refine marks_getComputeService.bind fun cs b₂ h₂ => ?_
  refine marks_getNetworkService.bind fun ns b₃ h₃ => ?_
  refine marks_getS3Services.bind fun os b₄ h₄ => ?_
  refine Quiet.get.bind_marks fun error => Marks.pure ?_
  obtain ⟨hproject, rfl⟩ := hb
  obtain ⟨hos, rfl⟩ := h₄
  refine ⟨⟨hproject, rfl, ?_, ?_, ?_, ?_, ?_, hos⟩, ?_⟩
  · rw [← Option.toList_map, ← Option.toList_map, h₁.1]
  · rw [← Option.toList_map, h₂.1.1]
  · exact fun s hs => h₂.1.2 s (Option.mem_toList.mp hs)
  · rw [← Option.toList_map, h₃.1.1]
  · exact fun s hs => h₃.1.2 s (Option.mem_toList.mp hs)
  · rw [incomplete_iff, ← h₁.2, ← h₂.2, ← h₃.2]
    simp only [Bool.or_false, Bool.false_or, Bool.or_eq_true]

/-- The data keep the flag as it is at the end. -/
theorem error_retrieveInfo {s s' : Bool} {d : ConnectionData}
    (h : retrieveInfo conn providerConf imageTags networkTags issuer region projectConf s =
      .ok (d, s')) : d.error = s' := by
  obtain ⟨⟨_, _⟩, -, h⟩ := bind_eq_ok.mp (mapError_eq_ok.mp h)
  obtain ⟨⟨_, _⟩, -, h⟩ := bind_eq_ok.mp h
  obtain ⟨⟨_, _⟩, -, h⟩ := bind_eq_ok.mp h
  obtain ⟨⟨_, _⟩, -, h⟩ := bind_eq_ok.mp h
  obtain ⟨⟨_, _⟩, -, h⟩ := bind_eq_ok.mp h
  cases h
  rfl

end

theorem quiet_checkConf (conf : Provider) : Quiet (checkConf conf) := by
  have hassert : ∀ c msg, Quiet (assert c msg) := fun c msg => by
    cases c
    · exact Quiet.throw _
    · exact Quiet.pure _
  refine (hassert _ _).bind fun _ => (hassert _ _).bind fun _ => (hassert _ _).bind fun _ => ?_
  exact (Quiet.lift _).bind fun _ => (Quiet.lift _).bind fun _ => (Quiet.lift _).bind fun _ =>
    Quiet.pure _

/-- The connection of a configuration to its cloud. -/
theorem init_run {connect : ConnectArgs → Except PyError Connection} {conf : Provider}
    {imageTags networkTags : List String} {issuer : Issuer} {d : ConnectionData} {s' : Bool}
    (h : OpenstackData.init connect conf imageTags networkTags issuer false = .ok (d, s')) :
    ∃ r p a conn, conf.regions = [r] ∧ conf.projects = [p] ∧ conf.identityProviders = [a] ∧
      connect (connectArgs conf issuer r p a) = .ok conn ∧
      retrieveInfo conn conf imageTags networkTags issuer r p false = .ok (d, s') := by
  obtain ⟨⟨q, s⟩, hcheck, h⟩ := bind_eq_ok.mp (mapError_eq_ok.mp h)
  obtain ⟨b, rfl, rfl⟩ := quiet_checkConf conf _ _ _ hcheck
  obtain ⟨hr, hp, ha⟩ := yields_checkConf conf _ _ _ hcheck
  obtain ⟨⟨conn, s⟩, hlift, hinfo⟩ := bind_eq_ok.mp h
  obtain ⟨_, hconn, hpure⟩ := bind_eq_ok.mp hlift
  cases hpure
  exact ⟨q.1, q.2.1, q.2.2, conn, hr, hp, ha, hconn, hinfo⟩

/-- The configuration of a connection passes the assertions. -/
theorem checkConf_run {conf : Provider} {r : Region} {p : Project} {a : AuthMethod}
    (hr : conf.regions = [r]) (hp : conf.projects = [p]) (ha : conf.identityProviders = [a]) (s : Bool) :
    checkConf conf s = .ok ((r, p, a), s) := by
  simp only [checkConf, hr, hp, ha]
  rfl

theorem checkConf_bind {α : Type} {conf : Provider} {r : Region} {p : Project} {a : AuthMethod}
    (hr : conf.regions = [r]) (hp : conf.projects = [p]) (ha : conf.identityProviders = [a])
    (f : Region × Project × AuthMethod → Retrieve α) : (checkConf conf >>= f) = f (r, p, a) := by
  funext s
  show (checkConf conf s >>= fun x => f x.1 x.2) = _
  rw [checkConf_run hr hp ha]
  rfl

/-- What is retrieved of a namespace. -/
theorem retrieveInfo_namespace {names : ServiceNames} {cluster : Cluster} {conf : Provider}
    {issuer : Issuer} {p : Project} {d : ConnectionData} {s' : Bool}
    (h : KubernetesData.retrieveInfo names cluster conf issuer p false = .ok (d, s')) :
    RetrievesNamespace names cluster conf.authUrl p d := by
  have hget : ∀ f : Bool → Retrieve ConnectionData, (get >>= f) false = f false false := fun _ => rfl
  rw [KubernetesData.retrieveInfo, hget] at h
  cases hs : KubernetesData.getServices cluster p.id names conf.authUrl p.perUserLimits with
  | ok q =>
    simp only [hs] at h
    cases h
    obtain ⟨objects, classes, hlists, hservices⟩ := getServices_servicesOf hs
    exact ⟨rfl, rfl, rfl, rfl, .inl ⟨objects, classes, q.1, q.2, hlists, hservices, rfl, rfl, rfl⟩⟩
  | error e =>
    have hfails := apiFails_of_raises (getServices_eq_error hs)
    cases e with
    | apiException status body =>
      simp only [hs] at h
      -- the flag is set before the answer is read
      obtain ⟨⟨_, _⟩, hlift, h⟩ := bind_eq_ok.mp h
      obtain ⟨_, hlog, hpure⟩ := bind_eq_ok.mp hlift
      cases hpure
      cases h
      exact ⟨rfl, rfl, rfl, rfl, .inr ⟨hfails (.inr ⟨status, body, rfl⟩), rfl, rfl, rfl⟩⟩
    | maxRetryError =>
      simp only [hs] at h
      cases h
      exact ⟨rfl, rfl, rfl, rfl, .inr ⟨hfails (.inl rfl), rfl, rfl, rfl⟩⟩
    | _ =>
      simp only [hs] at h
      cases h

section
variable {w : World} {c : ConnectionThread} {d : ConnectionData}

theorem openstack_retrieves (h : getProviderData w c = .ok d)
    (hkind : c.providerConf.kind = .openstack imageTags networkTags) :
    ∃ conn region, cloudOf w c = some conn ∧ c.providerConf.regions = [region] ∧
      Retrieves conn c.providerConf.authUrl region imageTags networkTags d ∧
      (d.error = true ↔ Incomplete conn) := by
  simp only [getProviderData, map_eq_ok, hkind] at h
  obtain ⟨⟨d, s'⟩, hrun, rfl⟩ := h
  obtain ⟨r, p, a, conn, hr, hp, ha, hconn, hinfo⟩ := init_run hrun
  have hcloud : cloudOf w c = some conn := by
    simp only [cloudOf, hp, hr, ha, List.head?_cons, hconn, Option.bind_eq_bind, Option.bind_some,
      Except.toOption]
  obtain ⟨b, hb, hretrieves, hflag⟩ := marks_retrieveInfo _ _ _ hinfo
  refine ⟨conn, r, hcloud, hr, hretrieves, ?_⟩
  rw [error_retrieveInfo hinfo, hb, Bool.false_or, hflag]

/-- The networks of a service are those the cloud answers. -/
theorem networks_retrieves {conn : Connection} {authUrl : String} {region : Region}
    (h : Retrieves conn authUrl region imageTags networkTags d) : ∀ s ∈ d.networkServices,
      s.networks.map (·.uuid) = (networksOf conn networkTags).items.map (·.id) := by
  intro s hs
  have hnetworks := congrArg (List.map Prod.fst) (h.networks s hs)
  rw [List.map_map, List.map_map] at hnetworks
  exact hnetworks

theorem kubernetes_retrieves (h : getProviderData w c = .ok d) {caPath : Option String}
    (hkind : c.providerConf.kind = .kubernetes caPath) :
    ∃ cluster p, clusterOf w c caPath = .ok cluster ∧ c.providerConf.projects = [p] ∧
      RetrievesNamespace w.serviceNames cluster c.providerConf.authUrl p d := by
  simp only [getProviderData, map_eq_ok, hkind] at h
  obtain ⟨⟨d, s'⟩, hrun, rfl⟩ := h
  obtain ⟨⟨q, s⟩, hcheck, hrun⟩ := bind_eq_ok.mp (mapError_eq_ok.mp hrun)
  obtain ⟨b, rfl, rfl⟩ := quiet_checkConf c.providerConf _ _ _ hcheck
  obtain ⟨-, hp, ha⟩ := yields_checkConf c.providerConf _ _ _ hcheck
  obtain ⟨⟨token, s⟩, htoken, hinfo⟩ := bind_eq_ok.mp hrun
  obtain ⟨_, hretrieved, hpure⟩ := bind_eq_ok.mp htoken
  cases hpure
  have hcluster : clusterOf w c caPath =
      .ok (w.connectKubernetes c.providerConf.authUrl token caPath) := by
    simp only [clusterOf, ha, Py.index0, ok_bind, hretrieved]
    rfl
  exact ⟨_, q.2.1, hcluster, hp, retrieveInfo_namespace hinfo⟩

end

end FRF.Proof
