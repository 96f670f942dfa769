import FedRegFeeder.Proof.Merge.Correct
import FedRegFeeder.Proof.Providers.Retrieved
import FedRegFeeder.Proof.Providers.Slas

/-!
# Built providers are sound

What a connection retrieves from a cloud that knows it by the project it asks
for, and lists nothing twice (`Faithful`), is about that project alone
(`getProviderData_about`). So the siblings of a run meet what merging asks of
them: what a run of `get_provider` returns can be merged into a provider, which
has no key twice and refers to no project that it lacks, and is what
`create_provider` returns unless its validators reject it
(`createProvider_sound`).
-/

namespace FRF.Spec

open FRF.Impl
open Py (PyError)

/-- The components of a built provider. -/
def componentsOf (p : ProviderCreateExtended) : Components :=
  (p.identityProviders, p.projects, p.regions)

/-- Nothing is there twice, and every project that is referred to is there. -/
structure Sound (p : ProviderCreateExtended) : Prop where
  keys : (componentsOf p).DistinctKeys
  closed : ∀ id, (componentsOf p).References id → id ∈ p.projects.map (·.uuid)

/-- A cloud knows the connection by the project `id`, and lists nothing twice. -/
structure FaithfulTo (id : String) (conn : Connection) : Prop extends ImagesOnce conn where
  current : ∀ id', conn.currentProjectId = .ok id' → id' = id
  project : ∀ id' p, conn.getProject id' = .ok p → p.id = id'
  flavors : (conn.flavors.items.map (·.id)).Nodup
  networks : ∀ tags, ((conn.networks tags).items.map (·.id)).Nodup
  catalog : ∀ catalog regionName, conn.serviceCatalog = .ok catalog →
    ((s3Endpoints catalog regionName).map (·.url)).Nodup

/-- The clouds know a connection by the project it asks for, and list nothing
twice. -/
def Faithful (connect : ConnectArgs → Except PyError Connection) : Prop :=
  ∀ args conn, connect args = .ok conn → FaithfulTo args.projectId conn

/-- Data about one project, in which nothing is twice. -/
structure AboutProject (id : String) (d : ConnectionData) : Prop where
  project : d.project.uuid = id
  quotas : ∀ k, ∀ s ∈ dataServices d k, ∀ q ∈ Service.quotas s, q.project = id
  networks : ∀ s ∈ d.networkServices, ∀ n ∈ s.networks, ∀ p ∈ n.access.projects, p = id
  endpoints : ∀ k, ((dataServices d k).map Service.endpoint).Nodup
  uuids : ∀ k : ResourceKind, ∀ s ∈ dataServices d k.service, (uuids k s).Nodup

/-- What a connection contributes is about its project, and nothing in it is
twice. -/
structure SelfContained (s : Sibling) : Prop where
  group : ∃ g, s.1.userGroups = [g] ∧ g.sla.project = s.2.1.uuid
  quotas : ∀ k, ∀ svc ∈ services s.2.2 k, ∀ q ∈ Service.quotas svc, q.project = s.2.1.uuid
  networks : ∀ svc ∈ s.2.2.networkServices, ∀ n ∈ svc.networks, ∀ p ∈ n.access.projects,
    p = s.2.1.uuid
  distinct : DistinctServices s.2.2

end FRF.Spec

namespace FRF.Proof

open FRF.Impl FRF.Impl.ProviderThread FRF.Spec
open Py (PyError)
open Framework

/-! ## One connection -/

theorem serviceQuotas_project {project : String} {limits : Limits} {l : List QuotaCreateExtended}
    (h : ServiceQuotas project limits l) : ∀ q ∈ l, q.project = project := by
  obtain ⟨q, hq, rfl | ⟨limit, -, rfl⟩⟩ := h
  · simp [withPerUser, hq.project₁, hq.project₂]
  · simp [withPerUser, hq.project₁, hq.project₂, PerUserQuota.on]

/-- Services read off an optional endpoint have distinct endpoints. -/
theorem nodup_of_toList {α : Type} {l : List α} {o : Option α} (h : l = o.toList) : l.Nodup := by
  rw [h]
  cases o with
  | none => exact List.nodup_nil
  | some a => exact List.nodup_singleton a

section
variable {id : String} {conn : Connection} {authUrl : String} {region : Region}
  {imageTags networkTags : List String} {d : ConnectionData}

theorem openstack_networks (hf : FaithfulTo id conn)
    (h : Retrieves conn authUrl region imageTags networkTags d) :
    ∀ s ∈ d.networkServices, ∀ n ∈ s.networks, ∀ p ∈ n.access.projects, p = id := by
  intro s hs n hn p hp
  have hmem : (n.uuid, n.access) ∈ s.networks.map fun n => (n.uuid, n.access) :=
    List.mem_map_of_mem hn
  rw [h.networks s hs] at hmem
  obtain ⟨m, -, hm⟩ := List.mem_map.mp hmem
  rw [← (Prod.mk.inj hm).2, networkAccess] at hp
  split at hp
  · cases hp
  · cases hcurrent : conn.currentProjectId with
    | error e => rw [hcurrent] at hp; cases hp
    | ok id' =>
      rw [hcurrent] at hp
      exact (List.mem_singleton.mp hp).trans (hf.current id' hcurrent)

theorem openstack_endpoints (hf : FaithfulTo id conn)
    (h : Retrieves conn authUrl region imageTags networkTags d) (k : ServiceKind) :
    ((dataServices d k).map Service.endpoint).Nodup := by
  cases k with
  | blockStorage => exact nodup_of_toList (h.blockStorage.trans Option.toList_map.symm)
  | compute => exact nodup_of_toList h.compute
  | identity =>
    show (d.identityServices.map (·.endpoint)).Nodup
    rw [h.identity]
    exact List.nodup_singleton _
  | network => exact nodup_of_toList h.network
  | objectStore =>
    obtain ⟨catalog, hcatalog, hendpoints⟩ := h.objectStore
    show (d.objectStoreServices.map (·.endpoint)).Nodup
    rw [hendpoints]
    exact hf.catalog catalog region.name hcatalog

theorem openstack_uuids (hf : FaithfulTo id conn)
    (h : Retrieves conn authUrl region imageTags networkTags d) (k : ResourceKind) :
    ∀ s ∈ dataServices d k.service, (uuids k s).Nodup := by
  intro s hs
  cases k with
  | flavor =>
    show (s.flavors.map (·.uuid)).Nodup
    rw [flavors_serviceOf (h.resources s hs)]
    exact hf.flavors.sublist (List.filter_sublist.map _)
  | image => exact (h.resources s hs).once hf.toImagesOnce
  | network =>
    show (s.networks.map (·.uuid)).Nodup
    rw [networks_retrieves h s hs]
    exact hf.networks _

theorem about_openstack (hf : FaithfulTo id conn)
    (h : Retrieves conn authUrl region imageTags networkTags d)
    (hq : ∀ k, ∀ s ∈ dataServices d k, ∀ q ∈ Service.quotas s, q.project = id) :
    AboutProject id d := by
  refine ⟨?_, hq, openstack_networks hf h, openstack_endpoints hf h, openstack_uuids hf h⟩
  obtain ⟨id', p, hid, hp, hd⟩ := h.project
  rw [hd, hf.project id' p hp, hf.current id' hid]

end

section
variable {names : ServiceNames} {cluster : Cluster} {authUrl : String} {p : Project} {d : ConnectionData}

/-- A namespace has a block storage and a compute service, if the cluster
answers, and no resources. -/
theorem namespace_services (h : RetrievesNamespace names cluster authUrl p d) :
    Answering cluster p.id ∧
      d.blockStorageServices.map (·.endpoint) = [authUrl ++ "/" ++ names.blockStorage] ∧
      d.computeServices.map (·.endpoint) = [authUrl ++ "/" ++ names.compute] ∧
      (∀ s ∈ d.computeServices, s.flavors = [] ∧ s.images = []) ∨
    ¬ Answering cluster p.id ∧ d.blockStorageServices = [] ∧ d.computeServices = [] := by
  rcases h.services with ⟨_, _, b, c, hlists, hservices, -, hb, hc⟩ | ⟨hfails, -, hb, hc⟩
  · obtain ⟨_, _, -, -, rfl⟩ := hservices.blockStorage
    obtain ⟨_, _, -, -, rfl⟩ := hservices.compute
    rw [hb, hc]
    exact .inl ⟨⟨_, _, hlists⟩, rfl, rfl, List.forall_mem_singleton.mpr ⟨rfl, rfl⟩⟩
  · exact .inr ⟨not_answering hfails, hb, hc⟩

theorem namespace_endpoints (h : RetrievesNamespace names cluster authUrl p d) (k : ServiceKind) :
    ∃ o : Option String, (dataServices d k).map Service.endpoint = o.toList := by
  cases k with
  | blockStorage =>
    rcases namespace_services h with ⟨-, hb, -⟩ | ⟨-, hb, -⟩
    · exact ⟨some _, hb⟩
    · exact ⟨none, congrArg (List.map _) hb⟩
  | compute =>
    rcases namespace_services h with ⟨-, -, hc, -⟩ | ⟨-, -, hc⟩
    · exact ⟨some _, hc⟩
    · exact ⟨none, congrArg (List.map _) hc⟩
  | identity => exact ⟨some _, congrArg (List.map _) h.identity⟩
  | network => exact ⟨none, congrArg (List.map _) h.network⟩
  | objectStore => exact ⟨none, congrArg (List.map _) h.objectStore⟩

theorem namespace_uuids (h : RetrievesNamespace names cluster authUrl p d) (k : ResourceKind) :
    ∀ s ∈ dataServices d k.service, uuids k s = [] := by
  have hcompute : ∀ s ∈ d.computeServices, s.flavors = [] ∧ s.images = [] := by
    rcases namespace_services h with ⟨-, -, -, hnone⟩ | ⟨-, -, hc⟩
    · exact hnone
    · rw [hc]
      exact List.forall_mem_nil _
  intro s hs
  cases k with
  | flavor => exact congrArg (List.map _) (hcompute s hs).1
  | image => exact congrArg (List.map _) (hcompute s hs).2
  | network =>
    have hnone : s ∈ d.networkServices := hs
    rw [h.network] at hnone
    cases hnone

theorem about_kubernetes (h : RetrievesNamespace names cluster authUrl p d)
    (hq : ∀ k, ∀ s ∈ dataServices d k, ∀ q ∈ Service.quotas s, q.project = p.id) :
    AboutProject p.id d := by
  refine ⟨by rw [h.project], hq, ?_, fun k => ?_, fun k s hs => ?_⟩
  · rw [h.network]
    exact List.forall_mem_nil _
  · obtain ⟨o, ho⟩ := namespace_endpoints h k
    exact nodup_of_toList ho
  · rw [namespace_uuids h k s hs]
    exact List.nodup_nil

end

/-- What a connection retrieves is about the project it is configured with. -/
theorem getProviderData_about {w : World} (hw : Faithful w.connectOpenstack) {c : ConnectionThread}
    {p : Project} (hp : c.providerConf.projects = [p]) {d : ConnectionData}
    (h : getProviderData w c = .ok d) : AboutProject p.id d := by
  obtain ⟨-, -, hdata⟩ := getProviderData_eq_ok hp h
  have hquotas : (∀ project, cloudProject w c = some project → project = p.id) →
      ∀ k, ∀ s ∈ dataServices d k, ∀ q ∈ Service.quotas s, q.project = p.id := by
    intro hproject k s hs q hq
    rcases hdata k s hs with hnone | ⟨project, hcloud, hservice⟩
    · rw [hnone] at hq
      cases hq
    · rw [serviceQuotas_project hservice q hq, hproject project hcloud]
  cases hkind : c.providerConf.kind with
  | openstack imageTags networkTags =>
    obtain ⟨conn, region, hcloud, hregions, hretrieves, -⟩ := openstack_retrieves h hkind
    simp only [cloudOf, hp, hregions, List.head?_cons, Option.bind_eq_bind, Option.bind_some,
      Option.bind_eq_some_iff, toOption_eq_some] at hcloud
    obtain ⟨a, ha, hconn⟩ := hcloud
    have hf : FaithfulTo p.id conn := hw _ conn hconn
    refine about_openstack hf hretrieves (hquotas fun project hproject => ?_)
    simp only [cloudProject, hkind, hp, hregions, ha, hconn, List.head?_cons, Option.bind_eq_bind,
      Option.bind_some, Except.toOption] at hproject
    exact hf.current _ (toOption_eq_some.mp hproject)
  | kubernetes caPath =>
    obtain ⟨cluster, p', -, hp', hretrieves⟩ := kubernetes_retrieves h hkind
    rw [hp] at hp'
    cases hp'
    refine about_kubernetes hretrieves (hquotas fun project hproject => ?_)
    simp only [cloudProject, hkind, hp, List.head?_cons, Option.bind_eq_bind, Option.bind_some,
      Option.some.injEq] at hproject
    exact hproject.symm

/-! ## Merging -/

section
variable {siblings : List Sibling} {c : Components}

/-- What the result refers to, some sibling refers to by an SLA, a quota or a
network, or it is there. -/
theorem mergeComponents_references {S : String → Prop}
    (hsla : ∀ s ∈ siblings, ∀ g ∈ s.1.userGroups, S g.sla.project)
    (hquota : ∀ s ∈ siblings, ∀ k, ∀ svc ∈ services s.2.2 k, ∀ q ∈ Service.quotas svc, S q.project)
    (hnet : ∀ s ∈ siblings, ∀ k, ∀ svc ∈ services s.2.2 k, NetworksIn S k svc)
    (h : mergeComponents siblings = .ok c) {id : String} (href : c.References id) :
    S id ∨ id ∈ c.2.1.map (·.uuid) := by
  obtain ⟨idps, projects, regions⟩ := c
  obtain ⟨hi, -, rs, hr, rfl⟩ := mergeComponents_eq_ok.mp h
  have hgroups := mergeAll_map_forall (P := fun i => ∀ g ∈ i.userGroups, S g.sla.project)
    (fun c x s _ hc hx hs => updateIdp_forall hc hx hs) hsla hi
  have hquotas := mergeAll_map_forall (P := fun r => ∀ k, ∀ svc ∈ services r k,
    ∀ q ∈ Service.quotas svc, S q.project) (fun c x s _ hc hx hs => updateRegion_forall
      (fun k _ _ _ hc hx h => quotas_updateService_forall hc hx h) hc hx hs) hquota hr
  have hnets := mergeAll_map_forall (P := fun r => ∀ k, ∀ svc ∈ services r k, NetworksIn S k svc)
    (fun c x s _ hc hx hs => updateRegion_forall (P := NetworksIn S)
      (fun _ _ _ _ hc hx h => networksIn_updateService hc hx h) hc hx hs) hnet hr
  rcases href with ⟨hi, hg⟩ | ⟨hr, hs, hq⟩ | ⟨hr, hs, hx, hp⟩ | ⟨hr, hs, hx, hp⟩ | ⟨hr, hs, hx, hp⟩
  · exact .inl (hgroups _ hi _ hg)
  all_goals obtain ⟨r, hmem, rfl⟩ := List.mem_map.mp hr
  · rw [services_filterRegion] at hs
    obtain ⟨svc, hsvc, rfl⟩ := List.mem_map.mp hs
    rw [quotas_filterService] at hq
    exact .inl (hquotas r hmem _ svc hsvc _ hq)
  · obtain ⟨svc, -, rfl⟩ := List.mem_map.mp hs
    exact .inr (projects_filterComputeResourcesProjects _ hx _ hp)
  · obtain ⟨svc, -, rfl⟩ := List.mem_map.mp hs
    exact .inr (projects_filterComputeResourcesProjects _ hx _ hp)
  · exact .inl (hnets r hmem .network _ hs _ hx _ hp)

/-- Siblings that are about their projects are merged into components that are
sound. -/
theorem mergeComponents_sound (hself : ∀ s ∈ siblings, SelfContained s) :
    ∃ c : Components, mergeComponents siblings = .ok c ∧ c.DistinctKeys ∧
      ∀ u, c.References u → u ∈ c.2.1.map (·.uuid) := by
  have hg : ∀ s ∈ siblings, ∃ g, s.1.userGroups = [g] :=
    fun s hs => (hself s hs).group.imp fun _ h => h.1
  have hu : ∀ s ∈ siblings, ∀ k : ResourceKind, ∀ svc ∈ services s.2.2 k.service,
      (uuids k svc).Nodup := fun s hs => (hself s hs).distinct.uuids
  obtain ⟨c, h⟩ := mergeComponents_total hg fun s hs => distinctUuids_of_nodup (hu s hs)
  obtain ⟨hi, hp, hr⟩ := mergeComponents_nodup h
  have hmem : ∀ s ∈ siblings, s.2.1.uuid ∈ c.2.1.map (·.uuid) := by
    intro s hs
    obtain ⟨-, hprojects, -⟩ := mergeComponents_eq_ok.mp h
    exact (mergeAll_map_mem_keys keepsKey_project hprojects _).mpr ⟨s, hs, rfl⟩
  refine ⟨c, h, ⟨hi, mergeComponents_groups_nodup hg h, hp, hr, fun r hr =>
    ⟨fun k => mergeComponents_endpoints_nodup k h r hr fun s hs _ => (hself s hs).distinct.endpoints k,
      mergeComponents_uuids_nodup hu h r hr⟩⟩, fun u href => ?_⟩
  refine (mergeComponents_references (S := (· ∈ c.2.1.map (·.uuid))) ?_ ?_ ?_ h href).elim id id
  · intro s hs g hg
    obtain ⟨g', hg', hproject⟩ := (hself s hs).group
    rw [hg', List.mem_singleton] at hg
    rw [hg, hproject]
    exact hmem s hs
  · intro s hs k svc hsvc q hq
    rw [(hself s hs).quotas k svc hsvc q hq]
    exact hmem s hs
  · intro s hs k svc hsvc
    cases k with
    | network =>
      intro n hn p hp
      rw [(hself s hs).networks svc hsvc n hn p hp]
      exact hmem s hs
    | blockStorage | compute | identity | objectStore => trivial

end

/-! ## A provider -/

section
variable {w : World} {t : ProviderThread} {validate : ProviderCreateExtended → Except PyError Unit}

/-- What a pair contributes meets what merging asks for. -/
theorem selfContained_produced (hw : Faithful w.connectOpenstack) {p : Region × Project}
    {d : ConnectionData} (hd : produced (getProviderData w) t p = some d) :
    ∃ s, retrieveComponents d = .ok s ∧ SelfContained s := by
  obtain ⟨c, hc, hdata⟩ := produced_eq_some.mp hd
  obtain ⟨issuer, a, hissuer, -, rfl⟩ := connect_eq_ok.mp hc
  obtain ⟨i, -, g, -, sla, -, -, rfl⟩ := getIssuerMatchingProject_eq_ok hissuer
  obtain ⟨hconf, hissuer, -⟩ := getProviderData_eq_ok rfl hdata
  have habout := getProviderData_about hw rfl hdata
  rw [prepareProjectConf_id] at habout
  obtain ⟨s, hs⟩ : ∃ s, retrieveComponents d = .ok s := by
    simp only [retrieveComponents, hconf, hissuer, issuerFor, Py.index0, ok_bind]
    exact ⟨_, rfl⟩
  have hsibling := siblingOf_produced hd hs
  have huuid : s.2.1.uuid = p.2.id := by rw [hsibling.project, habout.project]
  have hservices : ∀ k, services s.2.2 k = dataServices d k :=
    (services_retrieveComponents (r := p.1) (by rw [hconf]) hs).2
  have hnetworks : s.2.2.networkServices = d.networkServices := hservices .network
  obtain ⟨group, hgroup, -, hproject, -⟩ := hsibling.group
  refine ⟨s, hs, ⟨group, hgroup, hproject.trans huuid.symm⟩, ?_, ?_, ?_, ?_⟩
  · intro k
    rw [hservices k, huuid]
    exact habout.quotas k
  · rw [hnetworks, huuid]
    exact habout.networks
  · intro k
    rw [hservices k]
    exact habout.endpoints k
  · intro k
    rw [hservices k.service]
    exact habout.uuids k

/-- What a run returns meets what merging asks for. -/
theorem selfContained_returned (hw : Faithful w.connectOpenstack) {parallel : Bool} {conf : Provider}
    {data : List ConnectionData} {error : Bool} {s : Log Attempt}
    (hrun : (getProvider (getProviderData w) t parallel).run {} = .ok ((conf, data, error), s)) :
    ∀ d ∈ data, ∃ s, retrieveComponents d = .ok s ∧ SelfContained s := by
  intro d hd
  obtain ⟨-, p, -, hd⟩ := (getProvider_data _ hrun d).mp hd
  exact selfContained_produced hw hd

theorem mergeComponents_selfContained {data : List ConnectionData}
    (hdata : ∀ d ∈ data, ∃ s, retrieveComponents d = .ok s ∧ SelfContained s) :
    ∃ siblings, ∃ c : Components, data.mapM retrieveComponents = .ok siblings ∧
      mergeComponents siblings = .ok c ∧ c.DistinctKeys ∧
        ∀ u, c.References u → u ∈ c.2.1.map (·.uuid) := by
  obtain ⟨siblings, hsiblings⟩ := mapM_total fun d hd => (hdata d hd).imp fun _ h => h.1
  have hself : ∀ s ∈ siblings, SelfContained s := by
    intro s hs
    obtain ⟨d, hd, hok⟩ := (mapM_mem_ok hsiblings s).mp hs
    obtain ⟨s', hs', hself⟩ := hdata d hd
    rw [hok] at hs'
    exact Except.ok.inj hs' ▸ hself
  exact ⟨siblings, (mergeComponents_sound hself).imp fun _ hc => ⟨hsiblings, hc⟩⟩

/-- What a run returns is merged into a sound provider, which is what
`create_provider` returns unless the validators of providers reject it. -/
theorem createProvider_sound (hw : Faithful w.connectOpenstack) {parallel : Bool} {conf : Provider}
    {data : List ConnectionData} {error : Bool} {s : Log Attempt}
    (hrun : (getProvider (getProviderData w) t parallel).run {} = .ok ((conf, data, error), s)) :
    ∃ provider, Sound provider ∧
      createProvider validate conf data error = (validate provider).map fun _ => provider := by
  obtain ⟨siblings, c, hsiblings, hc, hkeys, hclosed⟩ :=
    mergeComponents_selfContained (selfContained_returned hw hrun)
  exact ⟨providerOf conf c error, ⟨hkeys, hclosed⟩, createProvider_merged hsiblings hc⟩

end

/-! ## A cloud -/

/-- Clouds that know their connections, with images. -/
def imageClouds (images : List SdkImage) (args : ConnectArgs) : Except PyError Connection :=
  .ok (imageCloud args.projectId images)

theorem faithful_imageClouds {images : List SdkImage} (h : (images.map (·.id)).Nodup) :
    Faithful (imageClouds images) := by
  rintro args _ ⟨⟩
  have hlisted : ∀ tag, ((imageCloud args.projectId images).images tag).items.Sublist images := by
    intro tag
    cases tag with
    | none => exact .refl _
    | some t => exact List.filter_sublist
  refine { images := fun tag => h.sublist ((hlisted tag).map _), names := ?_, current := ?_,
           project := ?_, flavors := List.nodup_nil, networks := fun _ => List.nodup_nil, catalog := ?_ }
  · intro tag tag' i hi j hj hij
    rw [List.inj_on_of_nodup_map h ((hlisted tag).subset hi) ((hlisted tag').subset hj) hij]
  · rintro _ ⟨⟩
    rfl
  · rintro _ _ ⟨⟩
    rfl
  · rintro _ _ ⟨⟩
    exact List.nodup_nil

def sampleImages : List SdkImage :=
  [{ id := "1", name := "ubuntu", visibility := "private", ownerId := "cms" }]

/-- Clouds with a private image of the project `cms`. -/
def imagesWorld : World :=
  { kubernetesWorld (.ok "token") unreachable with connectOpenstack := imageClouds sampleImages }

theorem createProvider_sound_sample : ∃ conf data error s provider,
    (getProvider (getProviderData imagesWorld) twoProjects).run {} = .ok ((conf, data, error), s) ∧
    createProvider (fun _ => .ok ()) conf data error = .ok provider ∧ Sound provider := by
  have hrun : ∃ data error s, (getProvider (getProviderData imagesWorld) twoProjects).run {} =
      .ok ((twoProjects.providerConf, data, error), s) := ⟨_, _, _, rfl⟩
  obtain ⟨data, error, s, hrun⟩ := hrun
  have hw : Faithful imagesWorld.connectOpenstack := faithful_imageClouds (List.nodup_singleton _)
  obtain ⟨provider, hsound, hp⟩ := createProvider_sound hw hrun
  exact ⟨_, data, error, s, provider, hrun, hp, hsound⟩

end FRF.Proof
