import FedRegFeeder.Proof.Merge.Services

/-!
# Merging the siblings of a provider

The loop of `merge_components` fills three dictionaries at once; each of them
is a merge by key of its own (`mergeComponents_eq_ok`), so what the result
contains is read off the merges of identity providers, projects and regions:

* `mergeComponents_has`: the entries of the result are those of the siblings;
* `mergeComponents_quotas`: the quotas of each service add up;
* `mergeComponents_total`: siblings whose keys are distinct are merged without
  error.
-/

namespace FRF.Proof

open FRF.Impl FRF.Spec
open Py (PyError)
open Framework

/-! ## Identity providers -/

/-- `get_updated_identity_provider` when there is a current one. -/
def updateIdp (c n : IdentityProviderCreateExtended) :
    Except PyError IdentityProviderCreateExtended := getUpdatedIdentityProvider (some c) n

/-- The first group of the new identity provider is appended, unless there
is one of its name. -/
theorem updateIdp_eq_ok {c n s : IdentityProviderCreateExtended} :
    updateIdp c n = .ok s ↔ ∃ g, n.userGroups.head? = some g ∧
      s = if g.name ∈ c.userGroups.map (·.name) then c
        else { c with userGroups := c.userGroups ++ [g] } := by
  simp only [updateIdp, getUpdatedIdentityProvider, bind_eq_ok, Py.index0_eq_ok, ite_not]
  refine exists_congr fun g => and_congr_right fun _ => ?_
  split <;> exact pure_eq_ok.trans eq_comm

theorem updateIdp_endpoint {c n s : IdentityProviderCreateExtended} (h : updateIdp c n = .ok s) :
    s.endpoint = c.endpoint := by
  obtain ⟨g, -, rfl⟩ := updateIdp_eq_ok.mp h
  split <;> rfl

theorem keepsKey_idp : KeepsKey (fun i : IdentityProviderCreateExtended => i.endpoint) updateIdp :=
  fun _ _ _ _ => updateIdp_endpoint

theorem updateIdp_groups {c n s : IdentityProviderCreateExtended} {g : UserGroupCreateExtended}
    (hg : n.userGroups = [g]) (h : updateIdp c n = .ok s) (name : String) :
    name ∈ s.userGroups.map (·.name) ↔
      name ∈ c.userGroups.map (·.name) ∨ name ∈ n.userGroups.map (·.name) := by
  obtain ⟨g', hg', rfl⟩ := updateIdp_eq_ok.mp h
  rw [hg, List.head?_cons, Option.some.injEq] at hg'
  subst hg'
  rw [hg, List.map_cons, List.map_nil, List.mem_singleton]
  split
  · rename_i hmem
    exact ⟨.inl, fun h => h.elim id (· ▸ hmem)⟩
  · rw [List.map_append, List.mem_append, List.map_cons, List.map_nil, List.mem_singleton]

theorem updateIdp_nodup {c n s : IdentityProviderCreateExtended}
    (hc : (c.userGroups.map (·.name)).Nodup) (h : updateIdp c n = .ok s) :
    (s.userGroups.map (·.name)).Nodup := by
  obtain ⟨g, -, rfl⟩ := updateIdp_eq_ok.mp h
  split
  · exact hc
  · rename_i hno
    rw [List.map_append, List.nodup_append]
    refine ⟨hc, List.nodup_singleton _, fun a ha b hb e => hno ?_⟩
    rw [List.map_cons, List.map_nil, List.mem_singleton] at hb
    rwa [← hb, ← e]

/-! ## Projects -/

/-- A project is stored over the one of its uuid. -/
def replaceProject (_ n : ProjectCreate) : Except PyError ProjectCreate := .ok n

theorem keepsKey_project : KeepsKey (fun p : ProjectCreate => p.uuid) replaceProject :=
  fun c n s hk h => by cases h; exact hk.symm

/-! ## The loop -/

/-- One turn is a step of each of three merges. -/
theorem mergeSibling_eq_ok {m m' : Merged} {s : Sibling} :
    mergeSibling m s = .ok m' ↔
      upsertDict (·.endpoint) updateIdp m.identityProviders s.1 = .ok m'.identityProviders ∧
      upsertDict (·.uuid) replaceProject m.projects s.2.1 = .ok m'.projects ∧
      upsertDict (·.name) updateRegion m.regions s.2.2 = .ok m'.regions := by
  obtain ⟨i, p, r⟩ := s
  have hi : ∀ c, getUpdatedIdentityProvider c i = c.elim (.ok i) (updateIdp · i) :=
    fun c => by cases c <;> rfl
  have hr : ∀ c, getUpdatedRegion c r = c.elim (.ok r) (updateRegion · r) :=
    fun c => by cases c <;> rfl
  have hp : upsertDict (·.uuid) replaceProject m.projects p =
      .ok (m.projects.set p.uuid p) := by
    simp only [upsertDict]
    split <;> rfl
  simp only [mergeSibling, bind_eq_ok, pure_eq_ok, upsertDict_eq_ok, hi, hr, hp, Except.ok.injEq]
  constructor
  · rintro ⟨idp, hidp, reg, hreg, rfl⟩
    exact ⟨⟨idp, hidp, rfl⟩, rfl, reg, hreg, rfl⟩
  · rintro ⟨⟨idp, hidp, hi'⟩, hp', reg, hreg, hr'⟩
    exact ⟨idp, hidp, reg, hreg, by rw [hi', hp', hr']⟩

theorem foldlM_mergeSibling_eq_ok :
    ∀ {siblings : List Sibling} {m m' : Merged}, siblings.foldlM mergeSibling m = .ok m' ↔
      (siblings.map (·.1)).foldlM (upsertDict (·.endpoint) updateIdp) m.identityProviders =
        .ok m'.identityProviders ∧
      (siblings.map (·.2.1)).foldlM (upsertDict (·.uuid) replaceProject) m.projects =
        .ok m'.projects ∧
      (siblings.map (·.2.2)).foldlM (upsertDict (·.name) updateRegion) m.regions = .ok m'.regions
  | [], m, m' => by
    obtain ⟨a, b, c⟩ := m
    obtain ⟨a', b', c'⟩ := m'
    simp only [List.map_nil, foldlM_nil_ok, Merged.mk.injEq]
  | s :: siblings, m, m' => by
    simp only [List.map_cons, foldlM_cons_ok]
    constructor
    · rintro ⟨m₁, h₁, h₂⟩
      obtain ⟨hi, hp, hr⟩ := mergeSibling_eq_ok.mp h₁
      obtain ⟨hi', hp', hr'⟩ := foldlM_mergeSibling_eq_ok.mp h₂
      exact ⟨⟨_, hi, hi'⟩, ⟨_, hp, hp'⟩, ⟨_, hr, hr'⟩⟩
    · rintro ⟨⟨i, hi, hi'⟩, ⟨p, hp, hp'⟩, ⟨r, hr, hr'⟩⟩
      exact ⟨⟨i, p, r⟩, mergeSibling_eq_ok.mpr ⟨hi, hp, hr⟩,
        foldlM_mergeSibling_eq_ok.mpr ⟨hi', hp', hr'⟩⟩

/-- `merge_components` merges the identity providers by endpoint, the
projects by uuid and the regions by name, and then filters the regions. -/
theorem mergeComponents_eq_ok {siblings : List Sibling}
    {idps : List IdentityProviderCreateExtended} {projects : List ProjectCreate}
    {filtered : List RegionCreateExtended} :
    mergeComponents siblings = .ok (idps, projects, filtered) ↔
      mergeAll (·.endpoint) updateIdp [] (siblings.map (·.1)) = .ok idps ∧
      mergeAll (·.uuid) replaceProject [] (siblings.map (·.2.1)) = .ok projects ∧
      ∃ regions, mergeAll (·.name) updateRegion [] (siblings.map (·.2.2)) = .ok regions ∧
        filtered = regions.map (filterRegion (projects.map (·.uuid))) := by
  simp only [mergeComponents, bind_eq_ok, pure_eq_ok, Prod.mk.injEq]
  constructor
  · rintro ⟨m, hm, rfl, rfl, rfl⟩
    obtain ⟨hi, hp, hr⟩ := foldlM_mergeSibling_eq_ok.mp hm
    refine ⟨(foldlM_upsertDict_ok keepsKey_idp).mp ⟨_, hi, rfl⟩,
      (foldlM_upsertDict_ok keepsKey_project).mp ⟨_, hp, rfl⟩, _,
      (foldlM_upsertDict_ok keepsKey_region).mp ⟨_, hr, rfl⟩, ?_⟩
    rw [(ownKeys_empty.foldlM_upsertDict keepsKey_project hp).keys]
  · rintro ⟨hi, hp, regions, hr, hc⟩
    obtain ⟨di, hdi, hi'⟩ := (foldlM_upsertDict_ok keepsKey_idp).mpr hi
    obtain ⟨dp, hdp, hp'⟩ := (foldlM_upsertDict_ok keepsKey_project).mpr hp
    obtain ⟨dr, hdr, hr'⟩ := (foldlM_upsertDict_ok keepsKey_region).mpr hr
    refine ⟨⟨di, dp, dr⟩, foldlM_mergeSibling_eq_ok.mpr ⟨hdi, hdp, hdr⟩, hi', hp', ?_⟩
    rw [hr', ← (ownKeys_empty.foldlM_upsertDict keepsKey_project hdp).keys, hp', ← hc]

/-! ## The filter -/

/-- What the filter does to a service. -/
def filterService (projects : List String) : (k : ServiceKind) → k.Class → k.Class
  | .compute, s => { s with
      flavors := filterComputeResourcesProjects s.flavors projects
      images := filterComputeResourcesProjects s.images projects }
  | .blockStorage, s | .identity, s | .network, s | .objectStore, s => s

theorem services_filterRegion (projects : List String) (r : RegionCreateExtended)
    (k : ServiceKind) :
    services (filterRegion projects r) k = (services r k).map (filterService projects k) := by
  cases k with
  | compute => rfl
  | blockStorage | identity | network | objectStore => exact (List.map_id _).symm

@[simp] theorem name_filterRegion (projects : List String) (r : RegionCreateExtended) :
    (filterRegion projects r).name = r.name := rfl

@[simp] theorem endpoint_filterService (projects : List String) {k : ServiceKind} (s : k.Class) :
    Service.endpoint (filterService projects k s) = Service.endpoint s := by
  cases k <;> rfl

@[simp] theorem quotas_filterService (projects : List String) {k : ServiceKind} (s : k.Class) :
    Service.quotas (filterService projects k s) = Service.quotas s := by
  cases k <;> rfl

theorem uuid_filterProjects {ρ : Type} [Resource ρ] (projects : List String) (item : ρ) :
    Resource.uuid (filterProjects projects item) = Resource.uuid item := by
  simp only [filterProjects]
  split
  · rfl
  · rw [Resource.uuid_withAccess]

theorem uuid_filterComputeResourcesProjects {ρ : Type} [Resource ρ] (projects : List String)
    (items : List ρ) : (filterComputeResourcesProjects items projects).map Resource.uuid =
      items.map Resource.uuid := by
  rw [filterComputeResourcesProjects, List.map_map]
  exact List.map_congr_left fun item _ => uuid_filterProjects projects item

@[simp] theorem uuids_filterService (projects : List String) {k : ResourceKind}
    (s : k.service.Class) : uuids k (filterService projects k.service s) = uuids k s := by
  cases k
  · exact uuid_filterComputeResourcesProjects projects s.flavors
  · exact uuid_filterComputeResourcesProjects projects s.images
  · rfl

/-! ## Entries -/

section
variable {s : Sibling} {n e u : String}

@[simp] theorem has_identityProvider : (components s).Has (.identityProvider e) ↔ s.1.endpoint = e := by
  simp only [components, Components.Has, List.mem_singleton, exists_eq_left]

@[simp] theorem has_userGroup : (components s).Has (.userGroup e n) ↔
    s.1.endpoint = e ∧ n ∈ s.1.userGroups.map (·.name) := by
  simp only [components, Components.Has, List.mem_singleton, exists_eq_left]

@[simp] theorem has_project : (components s).Has (.project u) ↔ s.2.1.uuid = u := by
  simp only [components, Components.Has, List.mem_singleton, exists_eq_left]

@[simp] theorem has_region : (components s).Has (.region n) ↔ s.2.2.name = n := by
  simp only [components, Components.Has, List.mem_singleton, exists_eq_left]

@[simp] theorem has_service {k : ServiceKind} : (components s).Has (.service n k e) ↔
    s.2.2.name = n ∧ ∃ svc ∈ services s.2.2 k, Service.endpoint svc = e := by
  simp only [components, Components.Has, List.mem_singleton, exists_eq_left]

@[simp] theorem has_resource {k : ResourceKind} : (components s).Has (.resource n k e u) ↔
    s.2.2.name = n ∧ ∃ svc ∈ services s.2.2 k.service, Service.endpoint svc = e ∧ u ∈ uuids k svc := by
  simp only [components, Components.Has, List.mem_singleton, exists_eq_left]

end

/-- The entries of the result are those of the siblings. -/
theorem mergeComponents_has {siblings : List Sibling} {c : Components}
    (hg : ∀ s ∈ siblings, ∃ g, s.1.userGroups = [g]) (h : mergeComponents siblings = .ok c)
    (entry : Entry) : c.Has entry ↔ ∃ s ∈ siblings, (components s).Has entry := by
  obtain ⟨idps, projects, filtered⟩ := c
  obtain ⟨hi, hp, regions, hr, rfl⟩ := mergeComponents_eq_ok.mp h
  cases entry with
  | identityProvider e =>
    simp only [Components.Has, components, List.mem_singleton, exists_eq_left]
    refine mergeAll_map_exists (fun c s _ i hk hu => ?_) hi
    rw [updateIdp_endpoint hu, ← hk, or_self]
  | userGroup e n =>
    simp only [Components.Has, components, List.mem_singleton, exists_eq_left]
    refine mergeAll_map_exists (fun c s hs i hk hu => ?_) hi
    obtain ⟨g, hg⟩ := hg s hs
    rw [updateIdp_endpoint hu, updateIdp_groups hg hu, ← hk, and_or_left]
  | project u =>
    simp only [Components.Has, components, List.mem_singleton, exists_eq_left]
    refine mergeAll_map_exists (fun c s _ p hk hu => ?_) hp
    cases hu
    rw [hk, or_self]
  | region n =>
    simp only [Components.Has, components, List.mem_singleton, exists_eq_left, List.mem_map,
      exists_exists_and_eq_and, name_filterRegion]
    refine mergeAll_map_exists (fun c s _ r hk hu => ?_) hr
    rw [updateRegion_name hu, ← hk, or_self]
  | service n k e =>
    simp only [Components.Has, components, List.mem_singleton, exists_eq_left, List.mem_map,
      exists_exists_and_eq_and, name_filterRegion, services_filterRegion, endpoint_filterService]
    refine mergeAll_map_exists (fun c s _ r hk hu => ?_) hr
    rw [updateRegion_name hu, getUpdatedServices_endpoints ((updateRegion_eq_ok.mp hu).2 k),
      ← hk, and_or_left]
  | resource n k e u =>
    simp only [Components.Has, components, List.mem_singleton, exists_eq_left, List.mem_map,
      exists_exists_and_eq_and, name_filterRegion, services_filterRegion, endpoint_filterService,
      uuids_filterService]
    refine mergeAll_map_exists (fun c s _ r hk hu => ?_) hr
    rw [updateRegion_name hu, getUpdatedServices_uuids ((updateRegion_eq_ok.mp hu).2 _),
      ← hk, and_or_left]

/-- The quotas attached to a service are those the siblings attach to it. -/
theorem mergeComponents_quotas {siblings : List Sibling} {c : Components}
    (h : mergeComponents siblings = .ok c) (n : String) (k : ServiceKind) (e : String) :
    c.quotasAt n k e = (siblings.map fun s => (components s).quotasAt n k e).sum := by
  obtain ⟨idps, projects, filtered⟩ := c
  obtain ⟨-, -, regions, hr, rfl⟩ := mergeComponents_eq_ok.mp h
  have hf : ∀ r, quotasOf (services (filterRegion (projects.map (·.uuid)) r) k) e =
      quotasOf (services r k) e := fun r => by
    simp only [quotasOf, services_filterRegion, List.map_map, Function.comp_def,
      endpoint_filterService, quotas_filterService]
  simp only [Components.quotasAt, components, List.map_map, Function.comp_def, name_filterRegion,
    hf, List.map_cons, List.map_nil, List.sum_singleton]
  refine mergeAll_map_sum (fun c x r hk hu => ?_) hr
  rw [updateRegion_name hu, hk, quotasOf_getUpdatedServices ((updateRegion_eq_ok.mp hu).2 k)]
  split
  · rfl
  · rw [add_zero]

/-! ## Success and distinct keys -/

theorem updateIdp_total {c n : IdentityProviderCreateExtended} (hn : n.userGroups ≠ []) :
    ∃ s, updateIdp c n = .ok s ∧ (c.userGroups ≠ [] → s.userGroups ≠ []) := by
  obtain ⟨g, gs, hg⟩ := List.exists_cons_of_ne_nil hn
  refine ⟨_, updateIdp_eq_ok.mpr ⟨g, by rw [hg, List.head?_cons], rfl⟩, fun hc => ?_⟩
  split
  · exact hc
  · exact List.append_ne_nil_of_right_ne_nil _ (List.cons_ne_nil _ _)

/-- Siblings whose services have distinct uuids, with one user group each, are
merged without error. -/
theorem mergeComponents_total {siblings : List Sibling}
    (hg : ∀ s ∈ siblings, ∃ g, s.1.userGroups = [g])
    (hu : ∀ s ∈ siblings, ∀ k, ∀ svc ∈ services s.2.2 k, DistinctUuids k svc) :
    ∃ c, mergeComponents siblings = .ok c := by
  obtain ⟨idps, hi⟩ : ∃ idps,
      mergeAll (·.endpoint) updateIdp [] (siblings.map (·.1)) = .ok idps := by
    refine (mergeAll_map_total (P := fun i => i.userGroups ≠ []) (fun c x _ hc hx => ?_)
      fun s hs => ?_).imp fun _ h => h.1
    · exact (updateIdp_total hx).imp fun s hs => ⟨hs.1, hs.2 hc⟩
    · obtain ⟨g, hg⟩ := hg s hs
      rw [hg]
      exact List.cons_ne_nil _ _
  obtain ⟨projects, hp⟩ : ∃ projects,
      mergeAll (·.uuid) replaceProject [] (siblings.map (·.2.1)) = .ok projects :=
    (mergeAll_map_total (P := fun _ => True) (fun _ x _ _ _ => ⟨x, rfl, trivial⟩)
      fun _ _ => trivial).imp fun _ h => h.1
  obtain ⟨regions, hr⟩ : ∃ regions,
      mergeAll (·.name) updateRegion [] (siblings.map (·.2.2)) = .ok regions :=
    (mergeAll_map_total (P := fun r => ∀ k, ∀ s ∈ services r k, DistinctUuids k s)
      (fun _ _ _ hc hx => updateRegion_total hc hx) hu).imp fun _ h => h.1
  exact ⟨(idps, projects, regions.map (filterRegion (projects.map (·.uuid)))),
    mergeComponents_eq_ok.mpr ⟨hi, hp, regions, hr, rfl⟩⟩

end FRF.Proof
