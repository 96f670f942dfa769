import Mathlib.Data.List.ReduceOption
import FedRegFeeder.Proof.Merge.Access
import FedRegFeeder.Proof.Providers.Data
import FedRegFeeder.Proof.Providers.Errors
import FedRegFeeder.Proof.Providers.Images

/-!
# Who may use the flavors and images of a provider

What a connection reports of a flavor or an image is what its cloud answers
(`contributes`). The provider gets the first report, restricted to the projects
of its connections, so that no private flavor or image is left without projects
if and only if each first report that is private lists the project of some
connection (`mergeComponents_visible`).
-/

namespace FRF.Spec

open FRF.Impl

/-- Who may use a flavor; a private flavor that no project may use is not
reported. -/
def flavorReport (conn : Connection) (f : SdkFlavor) : Option Access :=
  if f.isPublic then some .shared
  else if (conn.flavorAccess f).items.dedup = [] then none
  else some (.priv (conn.flavorAccess f).items.dedup)

/-- A compute service with what the cloud answers of its flavors and images. -/
structure ServiceOf (conn : Connection) (imageTags : List String)
    (s : ComputeServiceCreateExtended) : Prop where
  flavors : s.flavors.map (fun f => (f.uuid, f.access)) =
    conn.flavors.items.filterMap fun f => (flavorReport conn f).map (f.id, ·)
  images : ∀ image, image ∈ s.images ↔ ∃ i, Found conn imageTags i ∧ image = imageRecord conn i
  once : ImagesOnce conn → (s.images.map (·.uuid)).Nodup

/-- The cloud reports a flavor or an image with uuid `u`. -/
def Answered (conn : Connection) (imageTags : List String) (u : String) (a : Access) :
    ComputeResource → Prop
  | .flavor => ∃ f ∈ conn.flavors.items, f.id = u ∧ flavorReport conn f = some a
  | .image => ∃ i, Found conn imageTags i ∧ i.id = u ∧ imageAccess conn i = a

/-- The endpoint of the compute service, if it has one. -/
def computeEndpointOf (conn : Connection) : Option String :=
  conn.computeEndpoint.toOption.join.filter (· ≠ "")

/-- The cloud a connection reaches. -/
def cloudOf (w : World) (c : ConnectionThread) : Option Connection := do
  let p ← c.providerConf.projects.head?
  let r ← c.providerConf.regions.head?
  let a ← c.providerConf.identityProviders.head?
  (w.connectOpenstack (OpenstackData.connectArgs c.providerConf c.issuer r p a)).toOption

/-- The uuid of the project of a connection. -/
def projectOf (conn : Connection) : Option String := do
  let id ← conn.currentProjectId.toOption
  let project ← (conn.getProject id).toOption
  some project.id

/-- The image tags a connection is configured with. -/
def imageTagsOf (c : ConnectionThread) : List String :=
  match c.providerConf.kind with
  | .openstack imageTags _ => imageTags
  | .kubernetes _ => []

/-- A connection finds a flavor or an image at the endpoint `e` of the region
`n`. -/
def Finds (w : World) (c : ConnectionThread) (k : ComputeResource) (n e u : String) (a : Access) :
    Prop :=
  c.providerConf.regions.head?.map (·.name) = some n ∧
    ∃ conn, cloudOf w c = some conn ∧ computeEndpointOf conn = some e ∧
      Answered conn (imageTagsOf c) u a k

/-- The first of the connections that finds a flavor or an image. -/
def FirstFinds (w : World) (threads : List ConnectionThread) (k : ComputeResource)
    (n e u : String) (c : ConnectionThread) : Prop :=
  (∃ a, Finds w c k n e u a) ∧ ∃ before after, threads = before ++ c :: after ∧
    ∀ c' ∈ before, ∀ a, ¬ Finds w c' k n e u a

/-- No private flavor and no private image is left without projects. -/
def NoneInvisible (regions : List RegionCreateExtended) : Prop :=
  ∀ r ∈ regions, ∀ s ∈ r.computeServices,
    (∀ f ∈ s.flavors, f.access ≠ .priv []) ∧ ∀ i ∈ s.images, i.access ≠ .priv []

end FRF.Spec

namespace FRF.Proof

open FRF.Impl FRF.Spec
open Py (PyError SdkError)
open Framework

/-! ## The answers of a cloud -/

section
open OpenstackData

variable {conn : Connection}

theorem yields_forEach {α β γ : Type} {g : Generator α} {body : α → Retrieve β} {f : α → γ}
    {h : β → γ} (hf : ∀ a ∈ g.items, Yields (body a) fun b => h b = f a) :
    Yields (forEach g body) fun r => r.map h = g.items.map f :=
  (Yields.mapM_map hf).bind fun _ hr => Yields.bind' fun _ => Yields.pure hr

theorem yields_getFlavorProjects (f : SdkFlavor) :
    Yields (getFlavorProjects conn f) (· = (conn.flavorAccess f).items.dedup) := by
  unfold getFlavorProjects
  dsimp only
  split <;> exact Yields.bind' fun _ => Yields.pure rfl

/-- The extra specs of a flavor tell neither its uuid nor its projects. -/
theorem getFlavorExtraSpecs_keeps {extraSpecs : List (String × String)} {data r : Flavor}
    (h : getFlavorExtraSpecs extraSpecs data = .ok r) :
    r.uuid = data.uuid ∧ r.access = data.access := by
  unfold getFlavorExtraSpecs at h
  dsimp only at h
  split at h
  · obtain ⟨gpus, -, hr⟩ := bind_eq_ok.mp h
    cases hr
    exact ⟨rfl, rfl⟩
  · cases h
    exact ⟨rfl, rfl⟩

/-- What is returned for a flavor. -/
def flavorKept (f : SdkFlavor) (access : Access) : Option (String × Access) :=
  if access = .priv [] then none else some (f.id, access)

theorem flavorKept_flavorReport (f : SdkFlavor) : (flavorReport conn f).map (f.id, ·) =
    flavorKept f (if f.isPublic then .shared else .priv (conn.flavorAccess f).items.dedup) := by
  rw [flavorReport, flavorKept]
  split
  · rfl
  · split <;> rename_i h <;> simp [h]

theorem yields_flavorOf (f : SdkFlavor) : Yields (flavorOf conn f) fun o =>
    o.map (fun r => (r.uuid, r.access)) = (flavorReport conn f).map (f.id, ·) := by
  rw [flavorKept_flavorReport]
  have hend : ∀ {access : Access} {r : Flavor}, r.uuid = f.id ∧ r.access = access →
      (if access = .priv [] then none else some r).map (fun r => (r.uuid, r.access)) =
        flavorKept f access := by
    rintro _ r ⟨hu, rfl⟩
    rw [flavorKept, ← hu]
    split <;> rfl
  unfold flavorOf
  dsimp only
  split
  · refine (Yields.pure rfl : Yields (pure Access.shared) (· = .shared)).bind ?_
    rintro _ rfl
    split
    · exact Yields.pure (hend ⟨rfl, rfl⟩)
    · exact (Yields.lift fun r hr => getFlavorExtraSpecs_keeps hr).bind fun r hr =>
        Yields.pure (hend hr)
  · refine ((yields_getFlavorProjects f).map
      (Q := (· = Access.priv (conn.flavorAccess f).items.dedup)) fun _ h => h ▸ rfl).bind ?_
    rintro _ rfl
    split
    · exact Yields.pure (hend ⟨rfl, rfl⟩)
    · exact (Yields.lift fun r hr => getFlavorExtraSpecs_keeps hr).bind fun r hr =>
        Yields.pure (hend hr)

theorem yields_getFlavors : Yields (getFlavors conn) fun l =>
    l.map (fun r => (r.uuid, r.access)) =
      conn.flavors.items.filterMap fun f => (flavorReport conn f).map (f.id, ·) := by
  refine (yields_forEach fun f _ => yields_flavorOf f).bind fun l hl => Yields.pure ?_
  rw [← List.reduceOption_map, hl, reduceOption_map_eq]

theorem yields_forEach_eq {α β : Type} {g : Generator α} {body : α → Retrieve β} {f : α → β}
    (hf : ∀ a ∈ g.items, Yields (body a) (· = f a)) :
    Yields (forEach g body) (· = g.items.map f) :=
  (yields_forEach (h := id) hf).imp fun r hr => (List.map_id r).symm.trans hr

theorem yields_getImageProjects (i : SdkImage) : Yields (getImageProjects conn i)
    (· = (i.ownerId :: ((conn.members i).items.filter (·.status = "accepted")).map (·.id)).dedup) := by
  refine (yields_forEach_eq (f := id) fun _ _ => Yields.pure rfl).bind ?_
  rintro _ rfl
  rw [List.map_id]
  exact Yields.pure rfl

theorem yields_imageOf (i : SdkImage) : Yields (imageOf conn i) (· = imageRecord conn i) := by
  rw [imageOf, imageRecord, imageAccess]
  split
  · exact Yields.pure rfl
  · split
    · refine (yields_getImageProjects i).map (Q := fun a => a = Access.priv (i.ownerId ::
        ((conn.members i).items.filter (·.status = "accepted")).map (·.id)).dedup)
        (fun _ h => h ▸ rfl) |>.bind ?_
      rintro _ rfl
      exact Yields.pure rfl
    · exact Yields.pure rfl

theorem yields_imagesWithTag (osImages : List SdkImage) (tag : String) :
    Yields (imagesWithTag conn osImages tag) (· = keepNew conn osImages tag) := by
  refine (yields_forEach_eq (f := id) fun _ _ => Yields.pure rfl).bind ?_
  rintro _ rfl
  rw [List.map_id]
  exact Yields.pure rfl

theorem yields_getImages (tags : List String) : Yields (getImages conn tags)
    (· = (foundImages conn tags).map (imageRecord conn)) := by
  rw [getImages, foundImages]
  split
  · refine (Yields.foldlM_eq fun osImages tag _ => yields_imagesWithTag osImages tag).bind ?_
    rintro _ rfl
    exact (Yields.mapM_map (h := id) fun i _ => yields_imageOf i).imp fun r hr =>
      (List.map_id r).symm.trans hr
  · exact yields_forEach_eq fun i _ => yields_imageOf i

theorem yields_getEndpoint (r : Except SdkError (Option String)) :
    Yields (getEndpoint r) (· = r.toOption.join.filter (· ≠ "")) := by
  unfold getEndpoint
  split
  · exact Yields.bind' fun _ => Yields.pure rfl
  · exact (yields_call r).bind fun endpoint h => Yields.pure (by rw [h]; rfl)

theorem serviceOf_found {imageTags : List String} {s : ComputeServiceCreateExtended}
    (hf : s.flavors.map (fun f => (f.uuid, f.access)) =
      conn.flavors.items.filterMap fun f => (flavorReport conn f).map (f.id, ·))
    (hi : s.images = (foundImages conn imageTags).map (imageRecord conn)) :
    ServiceOf conn imageTags s := by
  refine ⟨hf, fun image => ?_, fun h => ?_⟩
  · simp only [hi, List.mem_map, mem_foundImages, eq_comm]
  · rw [hi, List.map_map]
    exact nodup_foundImages h imageTags

/-- The flavors of a service are those the cloud reports. -/
theorem flavors_serviceOf {imageTags : List String} {s : ComputeServiceCreateExtended}
    (h : ServiceOf conn imageTags s) : s.flavors.map (·.uuid) =
      (conn.flavors.items.filter fun f => (flavorReport conn f).isSome).map (·.id) := by
  have hkept : ∀ f, ((flavorReport conn f).map (f.id, ·)).map Prod.fst =
      if (flavorReport conn f).isSome then some f.id else none := by
    intro f
    cases flavorReport conn f <;> rfl
  have hflavors := congrArg (List.map Prod.fst) h.flavors
  rw [List.map_map, List.map_filterMap] at hflavors
  simp only [hkept, ← List.filterMap_filter] at hflavors
  exact hflavors.trans (congrFun List.filterMap_eq_map _)

theorem images_serviceOf {imageTags : List String} {s : ComputeServiceCreateExtended}
    (h : ServiceOf conn imageTags s) (u : String) :
    u ∈ s.images.map (·.uuid) ↔ ∃ i, Found conn imageTags i ∧ i.id = u := by
  simp only [List.mem_map, h.images]
  constructor
  · rintro ⟨_, ⟨i, hi, rfl⟩, rfl⟩
    exact ⟨i, hi, rfl⟩
  · rintro ⟨i, hi, rfl⟩
    exact ⟨_, ⟨i, hi, rfl⟩, rfl⟩

theorem yields_computeService {projectConf : Project} {imageTags : List String} :
    Yields (getComputeService conn projectConf imageTags) fun o =>
      o.map (·.endpoint) = computeEndpointOf conn ∧ ∀ s ∈ o, ServiceOf conn imageTags s := by
  refine (yields_getEndpoint _).bind fun endpoint he => ?_
  cases endpoint with
  | none => exact Yields.pure ⟨he, fun _ h => nomatch h⟩
  | some endpoint =>
    refine yields_getFlavors.bind fun flavors hf => (yields_getImages _).bind fun images hi => ?_
    refine Yields.bind' fun quotas => Yields.pure ⟨he, fun s hs => ?_⟩
    cases hs
    exact serviceOf_found hf hi

theorem yields_getProject : Yields (getProject conn) fun p => projectOf conn = some p.uuid :=
  (yields_call _).bind fun id hid => (yields_call _).bind fun project hp =>
    Yields.pure (by rw [projectOf, hid]; simp [Except.toOption, hp])

/-- Data of the given configuration, with the project of the cloud and its
compute service. -/
structure ComputeData (conn : Connection) (providerConf : Provider) (imageTags : List String)
    (d : ConnectionData) : Prop where
  providerConf : d.providerConf = providerConf
  project : projectOf conn = some d.project.uuid
  endpoints : d.computeServices.map (·.endpoint) = (computeEndpointOf conn).toList
  services : ∀ s ∈ d.computeServices, ServiceOf conn imageTags s

theorem yields_retrieveInfo {providerConf : Provider} {imageTags networkTags : List String}
    {issuer : Issuer} {region : Region} {projectConf : Project} :
    Yields (retrieveInfo conn providerConf imageTags networkTags issuer region projectConf)
      (ComputeData conn providerConf imageTags) := by
  refine Yields.mapError (yields_getProject.bind fun project hp => Yields.bind' fun bs => ?_)
  refine yields_computeService.bind fun o ⟨he, hs⟩ => ?_
  refine Yields.bind' fun ns => Yields.bind' fun os => Yields.bind' fun error => ?_
  refine Yields.pure ⟨rfl, hp, ?_, fun s h => hs s (Option.mem_toList.mp h)⟩
  rw [← he]
  cases o <;> rfl

end

/-! ## The contribution of a connection -/

theorem mem_accesses_iff {conn : Connection} {imageTags : List String}
    {s : ComputeServiceCreateExtended} (h : ServiceOf conn imageTags s) (k : ComputeResource)
    (u : String) (a : Access) : a ∈ accesses k u s ↔ Answered conn imageTags u a k := by
  cases k with
  | flavor =>
    have hpair : a ∈ accesses .flavor u s ↔
        (u, a) ∈ s.flavors.map (fun f => (f.uuid, f.access)) := by
      simp [accesses, and_assoc]
    rw [hpair, h.flavors]
    simp [Answered, and_left_comm]
  | image =>
    simp only [accesses, List.mem_map, List.mem_filter, h.images, Answered]
    constructor
    · rintro ⟨_, ⟨⟨i, hi, rfl⟩, hu⟩, rfl⟩
      exact ⟨i, hi, of_decide_eq_true hu, rfl⟩
    · rintro ⟨i, hi, rfl, rfl⟩
      exact ⟨_, ⟨⟨i, hi, rfl⟩, decide_eq_true rfl⟩, rfl⟩

theorem getProviderData_compute {w : World} {c : ConnectionThread} {d : ConnectionData}
    (hopen : c.providerConf.type = .openstack) (h : getProviderData w c = .ok d) :
    ∃ conn r, cloudOf w c = some conn ∧ c.providerConf.regions = [r] ∧
      ComputeData conn c.providerConf (imageTagsOf c) d := by
  cases hkind : c.providerConf.kind with
  | openstack imageTags networkTags =>
    refine getProviderData_openstack (Q := fun d => ∃ conn r, cloudOf w c = some conn ∧
      c.providerConf.regions = [r] ∧ ComputeData conn c.providerConf (imageTagsOf c) d) hkind h
        fun r p a conn hr hp ha hconn => ?_
    have hcloud : cloudOf w c = some conn := by
      simp only [cloudOf, hp, hr, ha, List.head?_cons, hconn, Option.bind_eq_bind, Option.bind_some,
        Except.toOption]
    have htags : imageTagsOf c = imageTags := by rw [imageTagsOf, hkind]
    rw [htags]
    exact yields_retrieveInfo.imp fun d hd => ⟨_, r, hcloud, hr, hd⟩
  | kubernetes caPath =>
    rw [Provider.type, hkind] at hopen
    cases hopen

/-- What a connection contributes to its provider. -/
structure Contributes (w : World) (c : ConnectionThread) (s : Sibling) : Prop where
  accesses : ∀ k n e u a, a ∈ (components s).accesses k n e u ↔ Finds w c k n e u a
  project : (cloudOf w c).bind projectOf = some s.2.1.uuid
  endpoints : (s.2.2.computeServices.map (·.endpoint)).Nodup

theorem project_retrieveComponents {d : ConnectionData} {s : Sibling}
    (h : retrieveComponents d = .ok s) : s.2.1 = d.project := by
  simp only [retrieveComponents, bind_eq_ok, pure_eq_ok] at h
  obtain ⟨_, -, _, -, _, -, _, -, _, -, rfl⟩ := h
  rfl

theorem mem_accesses_components {c : Components} {k : ComputeResource} {n e u : String}
    {a : Access} : a ∈ c.accesses k n e u ↔ ∃ r ∈ c.2.2, r.name = n ∧
      ∃ s ∈ r.computeServices, s.endpoint = e ∧ a ∈ accesses k u s := by
  simp only [Components.accesses, List.mem_flatMap, List.mem_filter, decide_eq_true_eq, and_assoc]

theorem contributes {w : World} {c : ConnectionThread} {d : ConnectionData} {s : Sibling}
    (hopen : c.providerConf.type = .openstack) (hd : getProviderData w c = .ok d)
    (hs : retrieveComponents d = .ok s) : Contributes w c s := by
  obtain ⟨conn, r, hcloud, hr, hdata⟩ := getProviderData_compute hopen hd
  obtain ⟨hname, hservices⟩ := services_retrieveComponents (hdata.providerConf ▸ hr) hs
  have hcompute : s.2.2.computeServices = d.computeServices := hservices .compute
  refine ⟨fun k n e u a => ?_, ?_, ?_⟩
  · have hregion : c.providerConf.regions.head?.map (·.name) = some n ↔ s.2.2.name = n := by
      rw [hr, hname, List.head?_cons, Option.map_some, Option.some.injEq]
    have hendpoint : computeEndpointOf conn = some e ↔
        e ∈ d.computeServices.map (·.endpoint) := by
      rw [hdata.endpoints, Option.mem_toList]
    rw [mem_accesses_components, Finds, hregion]
    simp only [components, List.mem_singleton, exists_eq_left, hcompute, hcloud, Option.some.injEq,
      exists_eq_left', hendpoint]
    refine and_congr_right fun _ => ?_
    constructor
    · rintro ⟨svc, hsvc, rfl, ha⟩
      exact ⟨List.mem_map_of_mem hsvc, (mem_accesses_iff (hdata.services svc hsvc) k u a).mp ha⟩
    · rintro ⟨he, ha⟩
      obtain ⟨svc, hsvc, rfl⟩ := List.mem_map.mp he
      exact ⟨svc, hsvc, rfl, (mem_accesses_iff (hdata.services svc hsvc) k u a).mpr ha⟩
  · rw [hcloud, Option.bind_some, project_retrieveComponents hs]
    exact hdata.project
  · rw [hcompute, hdata.endpoints]
    cases computeEndpointOf conn
    · exact List.nodup_nil
    · exact List.nodup_singleton _

/-! ## All connections -/

theorem noneInvisible_iff (c : Components) :
    NoneInvisible c.2.2 ↔ ∀ k n e u, Access.priv [] ∉ c.accesses k n e u := by
  simp only [mem_accesses_components]
  constructor
  · rintro h k n e u ⟨r, hr, -, s, hs, -, ha⟩
    obtain ⟨hf, hi⟩ := h r hr s hs
    cases k with
    | flavor =>
      obtain ⟨f, hmem, haccess⟩ := List.mem_map.mp ha
      exact hf f (List.mem_of_mem_filter hmem) haccess
    | image =>
      obtain ⟨i, hmem, haccess⟩ := List.mem_map.mp ha
      exact hi i (List.mem_of_mem_filter hmem) haccess
  · intro h r hr s hs
    refine ⟨fun f hf haccess => ?_, fun i hi haccess => ?_⟩
    · refine h .flavor r.name s.endpoint f.uuid ⟨r, hr, rfl, s, hs, rfl, ?_⟩
      exact List.mem_map.mpr ⟨f, List.mem_filter.mpr ⟨hf, decide_eq_true rfl⟩, haccess⟩
    · refine h .image r.name s.endpoint i.uuid ⟨r, hr, rfl, s, hs, rfl, ?_⟩
      exact List.mem_map.mpr ⟨i, List.mem_filter.mpr ⟨hi, decide_eq_true rfl⟩, haccess⟩

theorem restrict_eq_empty {projects : List String} {a : Access} :
    restrict projects a = .priv [] ↔ ∃ ps, a = .priv ps ∧ ∀ p ∈ ps, p ∉ projects := by
  cases a with
  | shared => exact ⟨(fun h => by cases h), (fun ⟨_, h, _⟩ => by cases h)⟩
  | priv ps => simp [restrict]

section
variable {w : World} {threads : List ConnectionThread} {siblings : List Sibling}

theorem firstFinds_mem {k : ComputeResource} {n e u : String} {c : ConnectionThread}
    (h : FirstFinds w threads k n e u c) : c ∈ threads := by
  obtain ⟨-, before, after, rfl, -⟩ := h
  exact List.mem_append_right _ List.mem_cons_self

/-- The first sibling that reports a resource is what the first connection that
finds it contributes. -/
theorem firstReport_iff {f : ConnectionThread → Except PyError Sibling}
    (hf : ∀ c ∈ threads, ∀ s, f c = .ok s → Contributes w c s)
    (h : threads.mapM f = .ok siblings) (k : ComputeResource) (n e u : String) (s : Sibling) :
    firstReport siblings k n e u = some s ↔ ∃ c, FirstFinds w threads k n e u c ∧ f c = .ok s := by
  classical
  rw [firstReport, mapM_find? (p := fun c => decide (∃ a, Finds w c k n e u a)) ?_ h]
  · simp only [List.find?_eq_some_iff_append, FirstFinds, decide_eq_true_eq, Bool.not_eq_true',
      decide_eq_false_iff_not, not_exists]
  · intro c hc s hs
    have hiff : (∃ a, Finds w c k n e u a) ↔ (components s).accesses k n e u ≠ [] := by
      simp only [← (hf c hc s hs).accesses, ne_eq, List.eq_nil_iff_forall_not_mem, not_forall,
        not_not]
    rw [Bool.eq_iff_iff, decide_eq_true_iff, hiff, Bool.not_eq_true', List.isEmpty_eq_false_iff]

theorem mem_projects_contributes {f : ConnectionThread → Except PyError Sibling}
    (hf : ∀ c ∈ threads, ∀ s, f c = .ok s → Contributes w c s)
    (h : threads.mapM f = .ok siblings) {m : Components} (hm : mergeComponents siblings = .ok m)
    (p : String) :
    p ∈ m.2.1.map (·.uuid) ↔ ∃ c ∈ threads, (cloudOf w c).bind projectOf = some p := by
  rw [mem_projects_iff hm]
  constructor
  · rintro ⟨s, hs, rfl⟩
    obtain ⟨c, hc, hcs⟩ := (mapM_mem_ok h s).mp hs
    exact ⟨c, hc, (hf c hc s hcs).project⟩
  · rintro ⟨c, hc, hproject⟩
    obtain ⟨s, hcs⟩ := mapM_ok_of_mem h hc
    rw [(hf c hc s hcs).project] at hproject
    exact ⟨s, (mapM_mem_ok h s).mpr ⟨c, hc, hcs⟩, Option.some.inj hproject⟩

/-- A resource is left without projects when it is private where it is found
first, and lists no project of a connection there. -/
theorem invisible_iff {f : ConnectionThread → Except PyError Sibling}
    (hf : ∀ c ∈ threads, ∀ s, f c = .ok s → Contributes w c s)
    (h : threads.mapM f = .ok siblings) {m : Components} (hm : mergeComponents siblings = .ok m)
    (k : ComputeResource) (n e u : String) :
    Access.priv [] ∈ m.accesses k n e u ↔ ∃ c ps, FirstFinds w threads k n e u c ∧
      Finds w c k n e u (.priv ps) ∧
        ∀ p ∈ ps, ¬ ∃ c' ∈ threads, (cloudOf w c').bind projectOf = some p := by
  have hd : ∀ s ∈ siblings, (s.2.2.computeServices.map (·.endpoint)).Nodup := fun s hs => by
    obtain ⟨c, hc, hcs⟩ := (mapM_mem_ok h s).mp hs
    exact (hf c hc s hcs).endpoints
  rw [accesses_mergeComponents hd hm]
  simp only [List.mem_map, restrict_eq_empty, mem_projects_contributes hf h hm]
  constructor
  · rintro ⟨a, ha, ps, rfl, hps⟩
    cases hfirst : firstReport siblings k n e u with
    | none => rw [hfirst] at ha; cases ha
    | some s =>
      rw [hfirst, Option.elim_some] at ha
      obtain ⟨c, hc, hcs⟩ := (firstReport_iff hf h k n e u s).mp hfirst
      exact ⟨c, ps, hc, ((hf c (firstFinds_mem hc) s hcs).accesses k n e u _).mp ha, hps⟩
  · rintro ⟨c, ps, hc, hfinds, hps⟩
    have hmem := firstFinds_mem hc
    obtain ⟨s, hcs⟩ := mapM_ok_of_mem h hmem
    refine ⟨.priv ps, ?_, ps, rfl, hps⟩
    rw [(firstReport_iff hf h k n e u s).mpr ⟨c, hc, hcs⟩, Option.elim_some]
    exact ((hf c hmem s hcs).accesses k n e u _).mpr hfinds

end

/-- No merged private flavor or image is left without projects exactly when each
one that is private where it is found first lists the project of some
connection there. -/
theorem mergeComponents_visible {w : World} {threads : List ConnectionThread}
    {data : List ConnectionData} {siblings : List Sibling} {m : Components}
    (hopen : ∀ c ∈ threads, c.providerConf.type = .openstack)
    (hdata : threads.mapM (getProviderData w) = .ok data)
    (hs : data.mapM retrieveComponents = .ok siblings) (hm : mergeComponents siblings = .ok m) :
    NoneInvisible m.2.2 ↔ ∀ k n e u c ps, FirstFinds w threads k n e u c →
      Finds w c k n e u (.priv ps) →
        ∃ p ∈ ps, ∃ c' ∈ threads, (cloudOf w c').bind projectOf = some p := by
  have hf : ∀ c ∈ threads, ∀ s, (getProviderData w c >>= retrieveComponents) = .ok s →
      Contributes w c s := fun c hc s h => by
    obtain ⟨d, hd, hds⟩ := bind_eq_ok.mp h
    exact contributes (hopen c hc) hd hds
  rw [noneInvisible_iff]
  simp only [invisible_iff hf (mapM_bind_ok hdata hs) hm]
  constructor
  · intro h k n e u c ps hfirst hfinds
    by_contra hno
    push Not at hno
    exact h k n e u ⟨c, ps, hfirst, hfinds, fun p hps ⟨c', hc', heq⟩ => hno p hps c' hc' heq⟩
  · rintro h k n e u ⟨c, ps, hfirst, hfinds, hno⟩
    obtain ⟨p, hps, hc'⟩ := h k n e u c ps hfirst hfinds
    exact hno p hps hc'

/-- The clouds list a private image of the project `owner`. -/
def imageWorld (owner : String) : World :=
  { kubernetesWorld (.ok "token") unreachable with
    connectOpenstack := fun args => .ok (imageCloud args.projectId
      [{ id := "1", name := "ubuntu", visibility := "private", ownerId := owner }]) }

/-- The connection of the first project finds the private image of the second
one: this project is left to the image. -/
theorem mergeComponents_visible_sample : ∃ data siblings m,
    (connections twoProjects).mapM (getProviderData (imageWorld "atlas")) = .ok data ∧
    data.mapM retrieveComponents = .ok siblings ∧ mergeComponents siblings = .ok m ∧
    NoneInvisible m.2.2 := by
  have hopen : ∀ c ∈ connections twoProjects, c.providerConf.type = .openstack := by
    intro c hc
    rcases List.mem_pair.mp hc with rfl | rfl <;> rfl
  have hrun : ∃ data siblings m,
      (connections twoProjects).mapM (getProviderData (imageWorld "atlas")) = .ok data ∧
      data.mapM retrieveComponents = .ok siblings ∧ mergeComponents siblings = .ok m :=
    ⟨_, _, _, rfl, rfl, rfl⟩
  obtain ⟨data, siblings, m, hdata, hs, hm⟩ := hrun
  refine ⟨data, siblings, m, hdata, hs, hm, (mergeComponents_visible hopen hdata hs hm).mpr ?_⟩
  rintro k n e u c ps hfirst ⟨-, conn, hcloud, -, hanswer⟩
  have hps : ps = ["atlas"] := by
    cases k with
    | flavor =>
      rcases List.mem_pair.mp (firstFinds_mem hfirst) with rfl | rfl <;> cases hcloud <;>
      · obtain ⟨f, hf, -⟩ := hanswer
        cases hf
    | image =>
      rcases List.mem_pair.mp (firstFinds_mem hfirst) with rfl | rfl <;> cases hcloud <;>
      · obtain ⟨i, hi, -, haccess⟩ := hanswer
        rw [List.mem_singleton.mp hi] at haccess
        exact (Access.priv.inj haccess).symm
  exact ⟨"atlas", hps ▸ List.mem_singleton_self _, _, List.mem_cons_of_mem _ List.mem_cons_self, rfl⟩

/-- A connection of the project `cms` to an OpenStack provider. -/
def openstackThread : ConnectionThread where
  providerConf :=
    { sampleConf with kind := .openstack [] [], projects := [{ id := "cms", sla := "cms-sla" }] }
  issuer := sampleIssuer

/-- The cloud lists a private image of another project than the one it knows
the connection by: no project is left to the image. -/
theorem image_invisible : ∃ data siblings m,
    [openstackThread].mapM (getProviderData (imageWorld "admin")) = .ok data ∧
    data.mapM retrieveComponents = .ok siblings ∧ mergeComponents siblings = .ok m ∧
    ¬ NoneInvisible m.2.2 := by
  refine ⟨_, _, _, rfl, rfl, rfl, fun h => ?_⟩
  exact (h _ List.mem_cons_self _ List.mem_cons_self).2 _ List.mem_cons_self rfl

end FRF.Proof
