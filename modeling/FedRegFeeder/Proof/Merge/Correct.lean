import FedRegFeeder.Proof.Merge.Components

/-!
# The merge of the siblings is correct

* `mergeComponents_exact`: the result has the entries of the siblings, once
  each, and the quotas of each service are the siblings' together;
* `mergeComponents_distinct`: siblings with distinct keys are merged without
  error into components with distinct keys;
* `mergeComponents_closed`: the result refers only to projects it has.
-/

namespace FRF.Proof

open FRF.Impl FRF.Spec
open Py (PyError)
open Framework

/-! ## Distinct keys -/

section
variable {siblings : List Sibling} {idps : List IdentityProviderCreateExtended}
  {projects : List ProjectCreate} {regions : List RegionCreateExtended}

/-- The keys the three dictionaries make distinct. -/
theorem mergeComponents_nodup (h : mergeComponents siblings = .ok (idps, projects, regions)) :
    (idps.map (·.endpoint)).Nodup ∧ (projects.map (·.uuid)).Nodup ∧
      (regions.map (·.name)).Nodup := by
  obtain ⟨hi, hp, rs, hr, rfl⟩ := mergeComponents_eq_ok.mp h
  refine ⟨mergeAll_empty_nodup keepsKey_idp hi, mergeAll_empty_nodup keepsKey_project hp, ?_⟩
  rw [List.map_map]
  exact mergeAll_empty_nodup keepsKey_region hr

theorem mergeComponents_groups_nodup
    (hg : ∀ s ∈ siblings, ∃ g, s.1.userGroups = [g])
    (h : mergeComponents siblings = .ok (idps, projects, regions)) :
    ∀ i ∈ idps, (i.userGroups.map (·.name)).Nodup := by
  obtain ⟨hi, -⟩ := mergeComponents_eq_ok.mp h
  refine mergeAll_map_forall (fun c x s _ hc _ hs => updateIdp_nodup hc hs) (fun s hs => ?_) hi
  obtain ⟨g, hg⟩ := hg s hs
  rw [hg]
  exact List.nodup_singleton _

theorem mergeComponents_uuids_nodup
    (hu : ∀ s ∈ siblings, ∀ k : ResourceKind, ∀ svc ∈ services s.2.2 k.service, (uuids k svc).Nodup)
    (h : mergeComponents siblings = .ok (idps, projects, regions)) :
    ∀ r ∈ regions, ∀ k : ResourceKind, ∀ svc ∈ services r k.service, (uuids k svc).Nodup := by
  obtain ⟨-, -, rs, hr, rfl⟩ := mergeComponents_eq_ok.mp h
  have hd : ∀ r ∈ rs, ∀ k, ∀ svc ∈ services r k, DistinctUuids k svc := by
    refine mergeAll_map_forall (fun c x s _ hc hx hs => ?_)
      (fun s hs => distinctUuids_of_nodup (hu s hs)) hr
    obtain ⟨s', hs', hd⟩ := updateRegion_total hc hx
    rw [hs'] at hs
    exact Except.ok.inj hs ▸ hd
  refine List.forall_mem_map.mpr fun r hr k => ?_
  rw [services_filterRegion]
  refine List.forall_mem_map.mpr fun svc hsvc => ?_
  rw [uuids_filterService]
  exact nodup_uuids (hd r hr _ svc hsvc)

/-- Endpoints that are distinct in each sibling of a region are distinct. -/
theorem mergeComponents_endpoints_nodup (k : ServiceKind)
    (h : mergeComponents siblings = .ok (idps, projects, regions)) :
    ∀ r ∈ regions,
      (∀ s ∈ siblings, s.2.2.name = r.name → ((services s.2.2 k).map Service.endpoint).Nodup) →
      ((services r k).map Service.endpoint).Nodup := by
  obtain ⟨-, -, rs, hr, rfl⟩ := mergeComponents_eq_ok.mp h
  refine List.forall_mem_map.mpr fun r hmem hd => ?_
  have he : ∀ r' ∈ rs, r'.name = r.name → ((services r' k).map Service.endpoint).Nodup := by
    refine mergeAll_map_forall (fun c x s _ hc _ hs hn => ?_) hd hr
    exact mergeAll_nodup keepsKey_service (hc (by rw [← updateRegion_name hs, hn]))
      ((updateRegion_eq_ok.mp hs).2 k)
  have hmap : (services (filterRegion (projects.map (·.uuid)) r) k).map Service.endpoint =
      (services r k).map Service.endpoint := by
    rw [services_filterRegion, List.map_map]
    exact List.map_congr_left fun svc _ => endpoint_filterService _ svc
  rw [hmap]
  exact he r hmem rfl

end

/-- Merging loses nothing and duplicates nothing: it succeeds, the result has
exactly the entries of the siblings, the quotas attached to a service are
those the siblings attach to it, and no key is there twice (no endpoint of a
service unless a sibling has it twice). -/
theorem mergeComponents_exact {siblings : List Sibling}
    (hg : ∀ s ∈ siblings, ∃ g, s.1.userGroups = [g])
    (hu : ∀ s ∈ siblings, ∀ k : ResourceKind, ∀ svc ∈ services s.2.2 k.service,
      (uuids k svc).Nodup) :
    ∃ c, mergeComponents siblings = .ok c ∧
      (∀ entry, Components.Has c entry ↔ ∃ s ∈ siblings, (components s).Has entry) ∧
      (∀ n k e, Components.quotasAt c n k e =
        (siblings.map fun s => (components s).quotasAt n k e).sum) ∧
      (c.1.map (·.endpoint)).Nodup ∧ (∀ i ∈ c.1, (i.userGroups.map (·.name)).Nodup) ∧
      (c.2.1.map (·.uuid)).Nodup ∧ (c.2.2.map (·.name)).Nodup ∧
      (∀ r ∈ c.2.2, ∀ k, (∀ s ∈ siblings, s.2.2.name = r.name →
        ((services s.2.2 k).map Service.endpoint).Nodup) →
          ((services r k).map Service.endpoint).Nodup) ∧
      ∀ r ∈ c.2.2, ∀ k : ResourceKind, ∀ svc ∈ services r k.service, (uuids k svc).Nodup := by
  obtain ⟨c, h⟩ := mergeComponents_total hg fun s hs => distinctUuids_of_nodup (hu s hs)
  obtain ⟨hi, hp, hr⟩ := mergeComponents_nodup h
  exact ⟨c, h, mergeComponents_has hg h, mergeComponents_quotas h, hi,
    mergeComponents_groups_nodup hg h, hp, hr,
    fun r hr k => mergeComponents_endpoints_nodup k h r hr, mergeComponents_uuids_nodup hu h⟩

/-- What a connection to the project `project` contributes when it sees one
image and one private network. -/
def sampleSibling (project : String) (image : Access) : Sibling :=
  ({ endpoint := "https://iam.cloud.infn.it", groupClaim := "groups"
     relationship := { endpoint := "https://iam.cloud.infn.it" }
     userGroups := [{ name := project ++ "-users", sla :=
       { docUuid := project ++ "-sla", startDate := "2024-01-01", endDate := "2025-01-01"
         project } }] },
   { uuid := project, name := project },
   { name := "recas", overbookingCpu := 1, overbookingRam := 1, bandwidthIn := 10, bandwidthOut := 10
     computeServices := [{ endpoint := "https://nova.recas.it", name := .openstackNova
                           images := [{ uuid := "ubuntu", name := "ubuntu", access := image }]
                           quotas := [{ project }] }]
     networkServices := [{ endpoint := "https://neutron.recas.it", name := .openstackNeutron
                           networks := [{ uuid := "private", name := "private"
                                          access := .priv [project] }] }] })

theorem sampleSibling_groups (project : String) (image : Access) :
    ∃ g, (sampleSibling project image).1.userGroups = [g] ∧
      g.sla.project = (sampleSibling project image).2.1.uuid := ⟨_, rfl, rfl⟩

theorem sampleSibling_distinct (project : String) (image : Access) :
    DistinctServices (sampleSibling project image).2.2 := by
  refine ⟨fun k => ?_, fun k => ?_⟩
  · cases k <;> first | exact List.nodup_nil | exact List.nodup_singleton _
  · cases k <;> refine List.forall_mem_singleton.mpr ?_ <;>
      first | exact List.nodup_nil | exact List.nodup_singleton _

/-- Two connections to one region. -/
def sampleSiblings : List Sibling :=
  [sampleSibling "cms" (.priv ["admin", "cms"]), sampleSibling "atlas" (.priv ["admin", "atlas"])]

theorem sampleSiblings_groups : ∀ s ∈ sampleSiblings, ∃ g, s.1.userGroups = [g] ∧
    g.sla.project = s.2.1.uuid :=
  List.forall_mem_cons.mpr ⟨sampleSibling_groups _ _,
    List.forall_mem_singleton.mpr (sampleSibling_groups _ _)⟩

theorem sampleSiblings_distinct : ∀ s ∈ sampleSiblings, DistinctServices s.2.2 :=
  List.forall_mem_cons.mpr ⟨sampleSibling_distinct _ _,
    List.forall_mem_singleton.mpr (sampleSibling_distinct _ _)⟩

theorem mergeComponents_exact_sample : ∃ c, mergeComponents sampleSiblings = .ok c ∧
    Components.Has c (.resource "recas" .network "https://neutron.recas.it" "private") := by
  obtain ⟨c, h, hhas, -⟩ := mergeComponents_exact
    (fun s hs => (sampleSiblings_groups s hs).imp fun _ h => h.1)
    (fun s hs => (sampleSiblings_distinct s hs).uuids)
  exact ⟨c, h, (hhas _).mpr ⟨_, List.mem_cons_self, _, List.mem_cons_self, rfl, _,
    List.mem_cons_self, rfl, List.mem_cons_self⟩⟩

/-- The representation invariant: siblings with distinct keys are merged
without error, into components with distinct keys. -/
theorem mergeComponents_distinct {siblings : List Sibling}
    (hg : ∀ s ∈ siblings, ∃ g, s.1.userGroups = [g])
    (hs : ∀ s ∈ siblings, DistinctServices s.2.2) :
    ∃ c, mergeComponents siblings = .ok c ∧ Components.DistinctKeys c := by
  have hu := fun s h => (hs s h).uuids
  obtain ⟨c, h⟩ := mergeComponents_total hg fun s hs => distinctUuids_of_nodup (hu s hs)
  obtain ⟨hi, hp, hr⟩ := mergeComponents_nodup h
  exact ⟨c, h, hi, mergeComponents_groups_nodup hg h, hp, hr, fun r hr =>
    ⟨fun k => mergeComponents_endpoints_nodup k h r hr fun s h _ => (hs s h).endpoints k,
      mergeComponents_uuids_nodup hu h r hr⟩⟩

theorem mergeComponents_distinct_sample :
    ∃ c, mergeComponents sampleSiblings = .ok c ∧ Components.DistinctKeys c :=
  mergeComponents_distinct (fun s hs => (sampleSiblings_groups s hs).imp fun _ h => h.1)
    sampleSiblings_distinct

/-! ## References -/

/-- A property of user groups that an updated identity provider's groups have
when both have it. -/
theorem updateIdp_forall {P : UserGroupCreateExtended → Prop} {c n s : IdentityProviderCreateExtended}
    (hc : ∀ g ∈ c.userGroups, P g) (hn : ∀ g ∈ n.userGroups, P g) (h : updateIdp c n = .ok s) :
    ∀ g ∈ s.userGroups, P g := by
  obtain ⟨g, hg, rfl⟩ := updateIdp_eq_ok.mp h
  split
  · exact hc
  · intro g' hg'
    rcases List.mem_append.mp hg' with h' | h'
    · exact hc g' h'
    · exact List.mem_singleton.mp h' ▸ hn g (List.mem_of_mem_head? hg)

theorem quotas_updateService_forall {k : ServiceKind} {P : QuotaCreateExtended → Prop}
    {c n s : k.Class} (hc : ∀ q ∈ Service.quotas c, P q) (hn : ∀ q ∈ Service.quotas n, P q)
    (h : Service.updateService c n = .ok s) : ∀ q ∈ Service.quotas s, P q := by
  rw [Service.quotas_updateService h]
  exact fun q hq => (List.mem_append.mp hq).elim (hc q) (hn q)

/-- The projects that the private networks of a network service list. -/
def NetworksIn (S : String → Prop) : (k : ServiceKind) → k.Class → Prop
  | .network, s => ∀ n ∈ s.networks, ∀ p ∈ n.access.projects, S p
  | .blockStorage, _ | .compute, _ | .identity, _ | .objectStore, _ => True

theorem Network.projects_updatedFrom {n c : Network} {p : String}
    (h : p ∈ (n.updatedFrom c).access.projects) :
    p ∈ n.access.projects ∨ p ∈ c.access.projects := by
  simp only [Network.updatedFrom] at h
  split at h
  · rename_i hn hc
    rw [hn, hc]
    exact Py.mem_setUnion.mp h
  · exact .inl h

theorem networksIn_updateService {S : String → Prop} {k : ServiceKind} {c n s : k.Class}
    (hc : NetworksIn S k c) (hn : NetworksIn S k n) (h : Service.updateService c n = .ok s) :
    NetworksIn S k s := by
  cases k with
  | network =>
    obtain ⟨networks, hnet, rfl⟩ := NetworkServiceCreateExtended.update_eq_ok.mp h
    refine getUpdatedNetworks_forall (fun c n hc hn p hp => ?_) hc hn hnet
    exact (Network.projects_updatedFrom hp).elim (hn p) (hc p)
  | blockStorage | compute | identity | objectStore => trivial

/-- After the filter a private resource lists projects that are there. -/
theorem projects_filterProjects {ρ : Type} [Resource ρ] {projects : List String} {item : ρ}
    {p : String} (h : p ∈ (Resource.access (filterProjects projects item)).projects) :
    p ∈ projects := by
  simp only [filterProjects] at h
  split at h
  · rename_i ha
    rw [ha] at h
    exact absurd h List.not_mem_nil
  · rw [Resource.access_withAccess] at h
    exact of_decide_eq_true (List.mem_filter.mp h).2

theorem projects_filterComputeResourcesProjects {ρ : Type} [Resource ρ] {projects : List String}
    {items : List ρ} : ∀ x ∈ filterComputeResourcesProjects items projects,
      ∀ p ∈ (Resource.access x).projects, p ∈ projects :=
  List.forall_mem_map.mpr fun _ _ _ => projects_filterProjects

/-- The filter leaves shared resources as they are, where they are. -/
theorem shared_filterComputeResourcesProjects {ρ : Type} [Resource ρ] (projects : List String) :
    ∀ items : List ρ, (filterComputeResourcesProjects items projects).filter
      (fun x => (Resource.access x).isShared) = items.filter fun x => (Resource.access x).isShared
  | [] => rfl
  | x :: items => by
    have ih := shared_filterComputeResourcesProjects projects items
    simp only [filterComputeResourcesProjects, List.map_cons] at ih ⊢
    cases hx : Resource.access x with
    | shared =>
      have hf : filterProjects projects x = x := by simp only [filterProjects, hx]
      rw [hf, List.filter_cons_of_pos (by rw [hx]; rfl), List.filter_cons_of_pos (by rw [hx]; rfl), ih]
    | priv ps =>
      have hf : Resource.access (filterProjects projects x) =
          .priv (ps.filter (· ∈ projects)) := by
        simp only [filterProjects, hx, Resource.access_withAccess]
      rw [List.filter_cons_of_neg (by rw [hf]; exact Bool.false_ne_true),
        List.filter_cons_of_neg (by rw [hx]; exact Bool.false_ne_true), ih]

theorem sharedResources_filterRegion (projects : List String) (r : RegionCreateExtended) :
    sharedResources (filterRegion projects r) = sharedResources r := by
  simp only [sharedResources, filterRegion, List.map_map]
  refine List.map_congr_left fun s _ => Prod.ext ?_ ?_
  · exact shared_filterComputeResourcesProjects projects s.flavors
  · exact shared_filterComputeResourcesProjects projects s.images

/-- Every project the result refers to is there, whatever projects the flavors
and images of the siblings list, and the filter leaves the shared flavors and
images as the loop made them. -/
theorem mergeComponents_closed {siblings : List Sibling} {c : Components}
    (hsla : ∀ s ∈ siblings, ∃ g, s.1.userGroups = [g] ∧ g.sla.project = s.2.1.uuid)
    (hquota : ∀ s ∈ siblings, ∀ k, ∀ svc ∈ services s.2.2 k, ∀ q ∈ Service.quotas svc,
      q.project = s.2.1.uuid)
    (hnet : ∀ s ∈ siblings, ∀ svc ∈ s.2.2.networkServices, ∀ n ∈ svc.networks,
      ∀ p ∈ n.access.projects, p = s.2.1.uuid)
    (h : mergeComponents siblings = .ok c) :
    (∀ p, c.References p → p ∈ c.2.1.map (·.uuid)) ∧
      ∃ m, siblings.foldlM mergeSibling {} = .ok m ∧
        c.2.2.map sharedResources = m.regions.values.map sharedResources := by
  obtain ⟨idps, projects, regions⟩ := c
  obtain ⟨hi, hp, rs, hr, hrs⟩ := mergeComponents_eq_ok.mp h
  have hmem : ∀ s ∈ siblings, s.2.1.uuid ∈ projects.map (·.uuid) := fun s hs =>
    (mergeAll_map_mem_keys keepsKey_project hp _).mpr ⟨s, hs, rfl⟩
  have hgroups : ∀ i ∈ idps, ∀ g ∈ i.userGroups, g.sla.project ∈ projects.map (·.uuid) := by
    refine mergeAll_map_forall (fun c x s _ hc hx hs => updateIdp_forall hc hx hs) (fun s hs => ?_) hi
    obtain ⟨g, hg, hproj⟩ := hsla s hs
    rw [hg]
    exact List.forall_mem_singleton.mpr (hproj ▸ hmem s hs)
  have hquotas : ∀ r ∈ rs, ∀ k, ∀ svc ∈ services r k, ∀ q ∈ Service.quotas svc,
      q.project ∈ projects.map (·.uuid) := by
    refine mergeAll_map_forall (fun c x s _ hc hx hs => ?_) (fun s hs k svc hsvc q hq => ?_) hr
    · exact updateRegion_forall (fun k _ _ _ hc hx h => quotas_updateService_forall hc hx h) hc hx hs
    · exact hquota s hs k svc hsvc q hq ▸ hmem s hs
  have hnets : ∀ r ∈ rs, ∀ k, ∀ svc ∈ services r k, NetworksIn (· ∈ projects.map (·.uuid)) k svc := by
    refine mergeAll_map_forall (fun c x s _ hc hx hs => ?_) (fun s hs k svc hsvc => ?_) hr
    · exact updateRegion_forall (P := NetworksIn (· ∈ projects.map (·.uuid)))
        (fun k _ _ _ hc hx h => networksIn_updateService hc hx h) hc hx hs
    · cases k with
      | network => exact fun n hn p hp => hnet s hs svc hsvc n hn p hp ▸ hmem s hs
      | blockStorage | compute | identity | objectStore => trivial
  constructor
  · rintro p (⟨hi, hg⟩ | ⟨hr, hs, hq⟩ | ⟨hr, hs, hx, hp⟩ | ⟨hr, hs, hx, hp⟩ | ⟨hr, hs, hx, hp⟩)
    · exact hgroups _ hi _ hg
    all_goals
      simp only [hrs] at hr
      obtain ⟨r, hmem, rfl⟩ := List.mem_map.mp hr
    · rw [services_filterRegion] at hs
      obtain ⟨svc, hsvc, rfl⟩ := List.mem_map.mp hs
      rw [quotas_filterService] at hq
      exact hquotas r hmem _ svc hsvc _ hq
    · obtain ⟨svc, -, rfl⟩ := List.mem_map.mp hs
      exact projects_filterComputeResourcesProjects _ hx p hp
    · obtain ⟨svc, -, rfl⟩ := List.mem_map.mp hs
      exact projects_filterComputeResourcesProjects _ hx p hp
    · exact hnets r hmem .network _ hs _ hx p hp
  · obtain ⟨m, hm, hc⟩ := bind_eq_ok.mp h
    cases hc
    refine ⟨m, hm, ?_⟩
    rw [List.map_map]
    exact List.map_congr_left fun r _ => sharedResources_filterRegion _ r

theorem mergeComponents_closed_sample : ∃ c, mergeComponents sampleSiblings = .ok c ∧
    ∀ p, Components.References c p → p ∈ c.2.1.map (·.uuid) := by
  obtain ⟨c, h⟩ := mergeComponents_total
    (fun s hs => (sampleSiblings_groups s hs).imp fun _ h => h.1)
    (fun s hs => distinctUuids_of_nodup (sampleSiblings_distinct s hs).uuids)
  refine ⟨c, h, (mergeComponents_closed sampleSiblings_groups ?_ ?_ h).1⟩
  · refine List.forall_mem_cons.mpr ⟨fun k => ?_, List.forall_mem_singleton.mpr fun k => ?_⟩ <;>
      cases k <;> simp [sampleSibling, services, Service.quotas]
  · simp [sampleSiblings, sampleSibling, Access.projects]

end FRF.Proof
