import FedRegFeeder.Proof.Providers.Sound

/-!
# A provider is what its clouds offer

What there is to find through a connection, read off the answers of its cloud
or of its cluster (`View`, `Sees`): of the images those that the cloud lists
for a tag, and none of their name for the tags before (`Found`). What a
connection contributes has the entries of that view (`has_produced`), so a
provider has an entry if and only if the cloud of some region and project that
could be retrieved offers it (`createProvider_offers`).
-/

namespace FRF.Spec

open FRF.Impl FRF.Impl.ProviderThread

/-- What there is to find through a connection: its project, the endpoints of
the services of each kind and the resources of each kind. -/
structure View where
  project : String → Prop
  services : ServiceKind → String → Prop
  resources : ResourceKind → String → Prop

/-- The view of a cloud. -/
def cloudView (conn : Connection) (authUrl regionName : String) (imageTags networkTags : List String) :
    View where
  project u := projectOf conn = some u
  services
    | .blockStorage, e => ∃ url, endpointOf conn.blockStorageEndpoint = some url ∧ Py.dirname url = e
    | .compute, e => endpointOf conn.computeEndpoint = some e
    | .identity, e => authUrl = e
    | .network, e => endpointOf conn.networkEndpoint = some e
    | .objectStore, e => ∃ catalog, conn.serviceCatalog = .ok catalog ∧
        ∃ x ∈ s3Endpoints catalog regionName, x.url = e
  resources
    | .flavor, u => ∃ f ∈ conn.flavors.items, f.id = u ∧ (flavorReport conn f).isSome
    | .image, u => ∃ i, Found conn imageTags i ∧ i.id = u
    | .network, u => ∃ n ∈ (networksOf conn networkTags).items, n.id = u

/-- The view of a namespace. -/
def clusterView (names : ServiceNames) (cluster : Cluster) (authUrl project : String) : View where
  project u := project = u
  services
    | .blockStorage, e => Answering cluster project ∧ authUrl ++ "/" ++ names.blockStorage = e
    | .compute, e => Answering cluster project ∧ authUrl ++ "/" ++ names.compute = e
    | .identity, e => authUrl = e
    | .network, _ | .objectStore, _ => False
  resources _ _ := False

/-- A connection for a region and a project has a view. -/
inductive Sees (w : World) (c : ConnectionThread) (r : Region) (p : Project) : View → Prop
  | cloud {imageTags networkTags : List String} {conn : Connection} :
    c.providerConf.kind = .openstack imageTags networkTags → cloudOf w c = some conn →
    Sees w c r p (cloudView conn c.providerConf.authUrl r.name imageTags networkTags)
  | cluster {caPath : Option String} {cluster : Cluster} :
    c.providerConf.kind = .kubernetes caPath → clusterOf w c caPath = .ok cluster →
    Sees w c r p (clusterView w.serviceNames cluster c.providerConf.authUrl p.id)

/-- What may be in a provider is in a view, with the issuer that gives access to
it and its region. -/
def View.Has (v : View) (issuer : Issuer) (regionName : String) : Entry → Prop
  | .identityProvider e => issuer.endpoint = e
  | .userGroup e n => issuer.endpoint = e ∧ n ∈ issuer.userGroups.map (·.name)
  | .project u => v.project u
  | .region n => regionName = n
  | .service n k e => regionName = n ∧ v.services k e
  | .resource n k e u => regionName = n ∧ v.services k.service e ∧ v.resources k u

/-- Some region and project of a provider can be retrieved, and offer an entry. -/
def Offered (w : World) (t : ProviderThread) (entry : Entry) : Prop :=
  ∃ p ∈ pairs t.providerConf, ∃ c d v, connect t p.1 p.2 = .ok c ∧ getProviderData w c = .ok d ∧
    Sees w c p.1 p.2 v ∧ v.Has c.issuer p.1.name entry

end FRF.Spec

namespace FRF.Proof

open FRF.Impl FRF.Impl.ProviderThread FRF.Spec
open Py (PyError)
open Framework

/-! ## One connection -/

/-- Retrieved data are the view. -/
structure Shows (d : ConnectionData) (v : View) : Prop where
  project : ∀ u, d.project.uuid = u ↔ v.project u
  services : ∀ k e, (∃ s ∈ dataServices d k, Service.endpoint s = e) ↔ v.services k e
  resources : ∀ k : ResourceKind, ∀ s ∈ dataServices d k.service, ∀ u, u ∈ uuids k s ↔ v.resources k u

/-- Services read off an optional endpoint. -/
theorem exists_endpoint_iff {σ : Type} [Service σ] {l : List σ} {o : Option String}
    (h : l.map Service.endpoint = o.toList) (e : String) :
    (∃ s ∈ l, Service.endpoint s = e) ↔ o = some e := by
  rw [← List.mem_map, h, Option.mem_toList]

theorem shows_cloud {conn : Connection} {authUrl : String} {region : Region}
    {imageTags networkTags : List String} {d : ConnectionData}
    (h : Retrieves conn authUrl region imageTags networkTags d) :
    Shows d (cloudView conn authUrl region.name imageTags networkTags) := by
  constructor
  · intro u
    obtain ⟨id, p, hid, hp, hd⟩ := h.project
    have hproject : projectOf conn = some p.id := by
      rw [projectOf, hid]
      simp only [Except.toOption, Option.bind_eq_bind, Option.bind_some, hp]
    show _ ↔ projectOf conn = some u
    rw [hd, hproject, Option.some.injEq]
  · intro k e
    cases k with
    | blockStorage =>
      refine (exists_endpoint_iff (h.blockStorage.trans Option.toList_map.symm) e).trans ?_
      exact Option.map_eq_some_iff
    | compute => exact exists_endpoint_iff h.compute e
    | identity =>
      show (∃ s ∈ d.identityServices, s.endpoint = e) ↔ authUrl = e
      rw [h.identity]
      simp only [List.mem_singleton, exists_eq_left]
    | network => exact exists_endpoint_iff h.network e
    | objectStore =>
      obtain ⟨catalog, hcatalog, hendpoints⟩ := h.objectStore
      show (∃ s ∈ d.objectStoreServices, s.endpoint = e) ↔ ∃ c, conn.serviceCatalog = .ok c ∧ _
      rw [← List.mem_map, hendpoints, List.mem_map, hcatalog]
      simp only [Except.ok.injEq, exists_eq_left']
  · intro k s hs u
    cases k with
    | flavor =>
      show u ∈ s.flavors.map (·.uuid) ↔ _
      rw [flavors_serviceOf (h.resources s hs), List.mem_map]
      refine exists_congr fun f => ?_
      rw [List.mem_filter, and_assoc, and_comm (b := f.id = u)]
    | image => exact images_serviceOf (h.resources s hs) u
    | network =>
      show u ∈ s.networks.map (·.uuid) ↔ _
      rw [networks_retrieves h s hs]
      exact List.mem_map

/-- A service that is there if the cluster answers. -/
theorem exists_service_iff {σ : Type} [Service σ] {l : List σ} {answering : Prop} {url : String}
    (h : (answering ∧ l.map Service.endpoint = [url]) ∨ (¬ answering ∧ l = [])) (e : String) :
    (∃ s ∈ l, Service.endpoint s = e) ↔ answering ∧ url = e := by
  rcases h with ⟨hanswering, hl⟩ | ⟨hnot, rfl⟩
  · rw [and_iff_right hanswering, exists_endpoint_iff (o := some url) hl, Option.some.injEq]
  · exact iff_of_false (fun h => List.not_mem_nil h.choose_spec.1) fun h => hnot h.1

theorem shows_cluster {names : ServiceNames} {cluster : Cluster} {authUrl : String} {p : Project}
    {d : ConnectionData} (h : RetrievesNamespace names cluster authUrl p d) :
    Shows d (clusterView names cluster authUrl p.id) := by
  constructor
  · intro u
    rw [h.project]
    rfl
  · intro k e
    cases k with
    | blockStorage =>
      refine exists_service_iff ?_ e
      exact (namespace_services h).imp (fun ⟨ha, hb, _⟩ => ⟨ha, hb⟩) fun ⟨ha, hb, _⟩ => ⟨ha, hb⟩
    | compute =>
      refine exists_service_iff ?_ e
      exact (namespace_services h).imp (fun ⟨ha, _, hc, _⟩ => ⟨ha, hc⟩) fun ⟨ha, _, hc⟩ => ⟨ha, hc⟩
    | identity =>
      show (∃ s ∈ d.identityServices, s.endpoint = e) ↔ authUrl = e
      rw [h.identity]
      simp only [List.mem_singleton, exists_eq_left]
    | network =>
      show (∃ s ∈ d.networkServices, s.endpoint = e) ↔ False
      rw [h.network]
      exact iff_false_intro fun h => List.not_mem_nil h.choose_spec.1
    | objectStore =>
      show (∃ s ∈ d.objectStoreServices, s.endpoint = e) ↔ False
      rw [h.objectStore]
      exact iff_false_intro fun h => List.not_mem_nil h.choose_spec.1
  · intro k s hs u
    rw [namespace_uuids h k s hs]
    exact iff_of_false List.not_mem_nil id

/-- What a connection with one region and one project retrieves is its view. -/
theorem shows_sees {w : World} {c : ConnectionThread} {r : Region} {p p' : Project} {d : ConnectionData}
    (hr : c.providerConf.regions = [r]) (hp : c.providerConf.projects = [p']) (hid : p'.id = p.id)
    (h : getProviderData w c = .ok d) :
    (∃ v, Sees w c r p v) ∧ ∀ v, Sees w c r p v → Shows d v := by
  cases hkind : c.providerConf.kind with
  | openstack imageTags networkTags =>
    obtain ⟨conn, region, hcloud, hregions, hretrieves, -⟩ := openstack_retrieves h hkind
    rw [hr, List.cons.injEq] at hregions
    obtain ⟨rfl, -⟩ := hregions
    refine ⟨⟨_, .cloud hkind hcloud⟩, fun v hv => ?_⟩
    cases hv with
    | cloud hkind' hcloud' =>
      rw [hkind] at hkind'
      rw [hcloud] at hcloud'
      cases hkind'
      cases hcloud'
      exact shows_cloud hretrieves
    | cluster hkind' => rw [hkind] at hkind'; cases hkind'
  | kubernetes caPath =>
    obtain ⟨cluster, q, hcluster, hprojects, hretrieves⟩ := kubernetes_retrieves h hkind
    rw [hp, List.cons.injEq] at hprojects
    obtain ⟨rfl, -⟩ := hprojects
    refine ⟨⟨_, .cluster hkind hcluster⟩, fun v hv => ?_⟩
    cases hv with
    | cloud hkind' => rw [hkind] at hkind'; cases hkind'
    | cluster hkind' hcluster' =>
      rw [hkind] at hkind'
      cases hkind'
      rw [hcluster] at hcluster'
      cases hcluster'
      exact hid ▸ shows_cluster hretrieves

/-! ## All connections -/

/-- What a connection contributes has the entries of what it shows. -/
theorem has_components {d : ConnectionData} {v : View} {r : Region} {p : Project} {s : Sibling}
    (hv : Shows d v) (hr : d.providerConf.regions = [r]) (hs : retrieveComponents d = .ok s)
    (hsibling : SiblingOf p d s) (entry : Entry) :
    (components s).Has entry ↔ v.Has d.issuer r.name entry := by
  obtain ⟨hname, hservices⟩ := services_retrieveComponents hr hs
  obtain ⟨g, hgroups, hnames, -⟩ := hsibling.group
  cases entry with
  | identityProvider e => rw [has_identityProvider, hsibling.endpoint]; rfl
  | userGroup e n =>
    rw [has_userGroup, hsibling.endpoint, hgroups, View.Has, hnames]
    rfl
  | project u => rw [has_project, hsibling.project]; exact hv.project u
  | region n => rw [has_region, hname]; rfl
  | service n k e =>
    rw [has_service, hname, hservices]
    exact and_congr_right fun _ => hv.services k e
  | resource n k e u =>
    rw [has_resource, hname, hservices, View.Has, ← hv.services]
    refine and_congr_right fun _ => ⟨?_, ?_⟩
    · rintro ⟨svc, hsvc, he, hu⟩
      exact ⟨⟨svc, hsvc, he⟩, (hv.resources k svc hsvc u).mp hu⟩
    · rintro ⟨⟨svc, hsvc, he⟩, hu⟩
      exact ⟨svc, hsvc, he, (hv.resources k svc hsvc u).mpr hu⟩

section
variable {w : World} {t : ProviderThread} {validate : ProviderCreateExtended → Except PyError Unit}

/-- What a pair contributes has the entries it offers. -/
theorem has_produced {p : Region × Project} {d : ConnectionData} {s : Sibling}
    (hd : produced (getProviderData w) t p = some d) (hs : retrieveComponents d = .ok s)
    (entry : Entry) : (components s).Has entry ↔
      ∃ c d v, connect t p.1 p.2 = .ok c ∧ getProviderData w c = .ok d ∧ Sees w c p.1 p.2 v ∧
        v.Has c.issuer p.1.name entry := by
  obtain ⟨c, hc, hdata⟩ := produced_eq_some.mp hd
  obtain ⟨issuer, a, -, -, rfl⟩ := connect_eq_ok.mp hc
  obtain ⟨hconf, hissuer, -⟩ := getProviderData_eq_ok rfl hdata
  obtain ⟨⟨v, hsees⟩, hshows⟩ :=
    shows_sees (r := p.1) (p := p.2) rfl rfl (prepareProjectConf_id _ _) hdata
  have hhas : ∀ v, Shows d v → ((components s).Has entry ↔ v.Has d.issuer p.1.name entry) :=
    fun v hv => has_components hv (by rw [hconf]) hs (siblingOf_produced hd hs) entry
  rw [hissuer] at hhas
  constructor
  · intro h
    exact ⟨_, d, v, hc, hdata, hsees, (hhas v (hshows v hsees)).mp h⟩
  · rintro ⟨c', -, v', hc', -, hsees', h⟩
    rw [hc] at hc'
    cases hc'
    exact (hhas v' (hshows v' hsees')).mpr h

/-- What is merged of retrieved data has the entries that each of them
contributes. -/
theorem has_merged {data : List ConnectionData} {siblings : List Sibling} {c : Components}
    (hsiblings : data.mapM retrieveComponents = .ok siblings) (hc : mergeComponents siblings = .ok c)
    (entry : Entry) :
    c.Has entry ↔ ∃ d ∈ data, ∃ s, retrieveComponents d = .ok s ∧ (components s).Has entry := by
  have hg : ∀ s ∈ siblings, ∃ g, s.1.userGroups = [g] := by
    intro s hs
    obtain ⟨d, -, hd⟩ := (mapM_mem_ok hsiblings s).mp hs
    exact group_retrieveComponents hd
  refine (mergeComponents_has hg hc entry).trans ?_
  constructor
  · rintro ⟨s, hs, hhas⟩
    obtain ⟨d, hd, hok⟩ := (mapM_mem_ok hsiblings s).mp hs
    exact ⟨d, hd, s, hok, hhas⟩
  · rintro ⟨d, hd, s, hok, hhas⟩
    exact ⟨s, (mapM_mem_ok hsiblings s).mpr ⟨d, hd, hok⟩, hhas⟩

/-- What is merged of what a run returned has an entry if and only if the
provider is active and some region and project that could be retrieved offer it. -/
theorem mergeComponents_offers {parallel : Bool} {conf : Provider} {data : List ConnectionData}
    {error : Bool} {s : Log Attempt} {siblings : List Sibling} {c : Components}
    (hrun : (getProvider (getProviderData w) t parallel).run {} = .ok ((conf, data, error), s))
    (hsiblings : data.mapM retrieveComponents = .ok siblings) (hc : mergeComponents siblings = .ok c)
    (entry : Entry) : c.Has entry ↔ t.providerConf.status = .active ∧ Offered w t entry := by
  rw [has_merged hsiblings hc, Offered]
  constructor
  · rintro ⟨d, hd, s, hok, hhas⟩
    obtain ⟨ht, p, hp, hd⟩ := (getProvider_data _ hrun d).mp hd
    exact ⟨ht, p, hp, (has_produced hd hok entry).mp hhas⟩
  · rintro ⟨ht, p, hp, c, d, v, hconnect, hdata, hsees, hhas⟩
    have hd := produced_eq_some.mpr ⟨c, hconnect, hdata⟩
    have hmem := (getProvider_data _ hrun d).mpr ⟨ht, p, hp, hd⟩
    obtain ⟨s, hok⟩ := mapM_ok_of_mem hsiblings hmem
    exact ⟨d, hmem, s, hok, (has_produced hd hok entry).mpr ⟨c, d, v, hconnect, hdata, hsees, hhas⟩⟩

/-- A provider built of what a run returned has an entry if and only if it is
active and some region and project that could be retrieved offer it. -/
theorem createProvider_offers {parallel : Bool} {conf : Provider} {data : List ConnectionData}
    {error : Bool} {s : Log Attempt} {provider : ProviderCreateExtended}
    (hrun : (getProvider (getProviderData w) t parallel).run {} = .ok ((conf, data, error), s))
    (hp : createProvider validate conf data error = .ok provider) (entry : Entry) :
    (componentsOf provider).Has entry ↔ t.providerConf.status = .active ∧ Offered w t entry := by
  obtain ⟨siblings, c, hsiblings, hc, -, rfl⟩ := createProvider_eq_ok.mp hp
  exact mergeComponents_offers hrun hsiblings hc entry

end

/-- An image that both projects of a provider find is in the provider. -/
theorem createProvider_offers_sample : ∃ conf data error s provider,
    (getProvider (getProviderData imagesWorld) twoProjects).run {} = .ok ((conf, data, error), s) ∧
    createProvider (fun _ => .ok ()) conf data error = .ok provider ∧
    (componentsOf provider).Has (.resource "default" .image "https://nova.recas.it" "1") := by
  have hrun : ∃ data error s provider, (getProvider (getProviderData imagesWorld) twoProjects).run {} =
      .ok ((twoProjects.providerConf, data, error), s) ∧
      createProvider (fun _ => .ok ()) twoProjects.providerConf data error = .ok provider :=
    ⟨_, _, _, _, rfl, rfl⟩
  obtain ⟨data, error, s, provider, hrun, hp⟩ := hrun
  refine ⟨_, data, error, s, provider, hrun, hp, (createProvider_offers hrun hp _).mpr ⟨rfl, ?_⟩⟩
  refine ⟨_, List.mem_cons_self, _, _, _, rfl, rfl, .cloud rfl rfl, rfl, rfl, ?_⟩
  have himage : sampleImages[0] ∈ sampleImages := List.mem_cons_self
  exact ⟨_, himage, rfl⟩

end FRF.Proof
