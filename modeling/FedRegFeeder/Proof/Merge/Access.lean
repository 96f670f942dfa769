import FedRegFeeder.Proof.Merge.Correct
import FedRegFeeder.Proof.Merge.First

/-!
# Who may use a merged flavor or image

Flavors and images are merged first come, first served: what
`merge_components` returns for a flavor or an image is what the first sibling
that reports it says, restricted to the projects that were merged
(`accesses_mergeComponents`). So the projects it lists are those that any
sibling lists for it exactly when the first report lists every one of them
(`mergeComponents_access`).
-/

namespace FRF.Spec

open FRF.Impl

/-- The resources of compute services that have access lists. -/
inductive ComputeResource where
  | flavor | image
deriving DecidableEq, Repr

/-- The access of each resource with uuid `u` in a service. -/
def accesses (k : ComputeResource) (u : String) (s : ComputeServiceCreateExtended) : List Access :=
  match k with
  | .flavor => (s.flavors.filter (·.uuid = u)).map (·.access)
  | .image => (s.images.filter (·.uuid = u)).map (·.access)

/-- The access of each resource with uuid `u` at the compute endpoint `e` of
the region `n`. -/
def Components.accesses (c : Components) (k : ComputeResource) (n e u : String) : List Access :=
  (c.2.2.filter (·.name = n)).flatMap fun r =>
    (r.computeServices.filter (·.endpoint = e)).flatMap (Spec.accesses k u)

/-- The first sibling that reports a resource. -/
def firstReport (siblings : List Sibling) (k : ComputeResource) (n e u : String) :
    Option Sibling :=
  siblings.find? fun s => !((components s).accesses k n e u).isEmpty

/-- What `filter_compute_resources_projects` does to an access. -/
def restrict (projects : List String) : Access → Access
  | .shared => .shared
  | .priv ps => .priv (ps.filter (· ∈ projects))

end FRF.Spec

namespace FRF.Proof

open FRF.Impl FRF.Spec
open Py (PyError)
open Framework

/-! ## Services -/

section
variable {ρ : Type} [Resource ρ]

/-- The resources with a uuid are those that were there, if there were any. -/
theorem filter_getUpdatedResources {α : Type} (f : ρ → α) (cur new : List ρ) (u : String) :
    (⟨((getUpdatedResources cur new).filter (Resource.uuid · = u)).map f⟩ : First α) =
      ⟨(cur.filter (Resource.uuid · = u)).map f⟩ * ⟨(new.filter (Resource.uuid · = u)).map f⟩ := by
  simp only [First.mul_def, List.map_eq_nil_iff, List.filter_eq_nil_iff, decide_eq_true_eq,
    getUpdatedResources, List.filter_append, List.filter_filter, List.map_append]
  split
  · rename_i hno
    rw [List.filter_eq_nil_iff.mpr (by simpa using hno), List.map_nil, List.nil_append]
    congr 2
    refine List.filter_congr fun a _ => ?_
    by_cases ha : Resource.uuid a = u
    · have : ¬ u ∈ cur.map Resource.uuid := fun hm => by
        obtain ⟨b, hb, hbu⟩ := List.mem_map.mp hm
        exact hno b hb hbu
      simp [ha, this]
    · simp [ha]
  · rename_i hmem
    have hu : u ∈ cur.map Resource.uuid := by
      push Not at hmem
      exact List.mem_map.mpr hmem
    have hnew : new.filter (fun a => decide (Resource.uuid a = u) &&
        decide (Resource.uuid a ∉ cur.map Resource.uuid)) = [] := by
      refine List.filter_eq_nil_iff.mpr fun a _ ha => ?_
      simp only [Bool.and_eq_true, decide_eq_true_eq] at ha
      exact ha.2 (ha.1 ▸ hu)
    rw [hnew, List.map_nil, List.append_nil]

theorem access_filterProjects (projects : List String) (item : ρ) :
    Resource.access (filterProjects projects item) = restrict projects (Resource.access item) := by
  simp only [filterProjects]
  split
  · rename_i h; rw [h]; rfl
  · rename_i ps h; rw [Resource.access_withAccess, h]; rfl

theorem accesses_filterComputeResourcesProjects (projects : List String) (items : List ρ)
    (u : String) :
    ((filterComputeResourcesProjects items projects).filter (Resource.uuid · = u)).map
        Resource.access =
      ((items.filter (Resource.uuid · = u)).map Resource.access).map (restrict projects) := by
  rw [filterComputeResourcesProjects, List.filter_map, List.map_map, List.map_map]
  have hf : (fun r : ρ => decide (Resource.uuid r = u)) ∘ filterProjects projects =
      fun r => decide (Resource.uuid r = u) := by
    funext r
    simp only [Function.comp_apply, uuid_filterProjects]
  rw [hf]
  exact List.map_congr_left fun r _ => access_filterProjects projects r

end

/-- The report a compute service makes of a resource. -/
def serviceReport (k : ComputeResource) (u : String) (s : ComputeServiceCreateExtended) :
    First Access := ⟨accesses k u s⟩

theorem serviceReport_updateService {k : ComputeResource} {u : String}
    {c n s : ComputeServiceCreateExtended} (h : Service.updateService c n = .ok s) :
    serviceReport k u s = serviceReport k u c * serviceReport k u n := by
  cases h
  cases k
  · exact filter_getUpdatedResources Resource.access c.flavors n.flavors u
  · exact filter_getUpdatedResources Resource.access c.images n.images u

theorem serviceReport_filterService (projects : List String) (k : ComputeResource) (u : String)
    (s : ComputeServiceCreateExtended) :
    serviceReport k u (filterService projects .compute s) =
      (serviceReport k u s).map (restrict projects) := by
  cases k
  · exact First.ext (accesses_filterComputeResourcesProjects projects s.flavors u)
  · exact First.ext (accesses_filterComputeResourcesProjects projects s.images u)

/-! ## Components -/

theorem accesses_eq_found (c : Components) (k : ComputeResource) (n e u : String) :
    c.accesses k n e u = found (k := .compute) (serviceReport k u) c.2.2 n e := rfl

/-- The filter of `merge_components` restricts what is found. -/
theorem found_filterRegion (projects : List String) (k : ComputeResource) (u : String)
    (rs : List RegionCreateExtended) (n e : String) :
    found (k := .compute) (serviceReport k u) (rs.map (filterRegion projects)) n e =
      (found (k := .compute) (serviceReport k u) rs n e).map (restrict projects) := by
  simp only [found, List.map_flatMap, List.filter_map, List.flatMap_map]
  refine List.flatMap_congr fun r _ => ?_
  rw [services_filterRegion, List.filter_map, List.flatMap_map]
  simp only [Function.comp_def]
  exact List.flatMap_congr fun s _ =>
    congrArg First.toList (serviceReport_filterService projects k u s)

/-- What is returned for a flavor or an image is the first report of it,
restricted to the merged projects. -/
theorem accesses_mergeComponents {siblings : List Sibling} {c : Components}
    (hd : ∀ s ∈ siblings, (s.2.2.computeServices.map (·.endpoint)).Nodup)
    (h : mergeComponents siblings = .ok c) (k : ComputeResource) (n e u : String) :
    c.accesses k n e u =
      ((firstReport siblings k n e u).elim [] fun s => (components s).accesses k n e u).map
        (restrict (c.2.1.map (·.uuid))) := by
  obtain ⟨idps, projects, filtered⟩ := c
  obtain ⟨-, -, rs, hr, rfl⟩ := mergeComponents_eq_ok.mp h
  have hfound := found_merge (k := .compute) (serviceReport k u)
    (fun _ _ _ => serviceReport_updateService) hd hr n e
  rw [accesses_eq_found, found_filterRegion, hfound]
  rfl

/-! ## Projects -/

theorem projects_restrict {projects : List String} {a : Access} {p : String} :
    p ∈ (restrict projects a).projects ↔ p ∈ a.projects ∧ p ∈ projects := by
  cases a with
  | shared => exact ⟨(nomatch ·), fun h => nomatch h.1⟩
  | priv ps => simp [restrict, Access.projects, List.mem_filter]

theorem isShared_restrict (projects : List String) (a : Access) :
    (restrict projects a).isShared = a.isShared := by
  cases a <;> rfl

theorem mem_projects_iff {siblings : List Sibling} {c : Components}
    (h : mergeComponents siblings = .ok c) (p : String) :
    p ∈ c.2.1.map (·.uuid) ↔ ∃ s ∈ siblings, s.2.1.uuid = p := by
  obtain ⟨idps, projects, filtered⟩ := c
  exact mergeAll_map_mem_keys keepsKey_project (mergeComponents_eq_ok.mp h).2.1 p

/-- For a resource that every sibling which reports it reports as private, the
merged resource is private and lists exactly the merged projects that some
sibling lists for it, if and only if each of these is listed by the first
sibling that reports it. -/
theorem mergeComponents_access {siblings : List Sibling} {c : Components}
    (hd : ∀ s ∈ siblings, (s.2.2.computeServices.map (·.endpoint)).Nodup)
    (h : mergeComponents siblings = .ok c) (k : ComputeResource) (n e u : String)
    (hpriv : ∀ s ∈ siblings, ∀ a ∈ (components s).accesses k n e u, a.isShared = false) :
    ((∀ a ∈ c.accesses k n e u, a.isShared = false) ∧
      ∀ p, (∃ a ∈ c.accesses k n e u, p ∈ a.projects) ↔
        p ∈ c.2.1.map (·.uuid) ∧
          ∃ s ∈ siblings, ∃ a ∈ (components s).accesses k n e u, p ∈ a.projects) ↔
    ∀ first, firstReport siblings k n e u = some first →
      ∀ p, (∃ s ∈ siblings, s.2.1.uuid = p) →
        (∃ s ∈ siblings, ∃ a ∈ (components s).accesses k n e u, p ∈ a.projects) →
        ∃ a ∈ (components first).accesses k n e u, p ∈ a.projects := by
  have hacc := accesses_mergeComponents hd h k n e u
  have hlist : ∀ p, (∃ a ∈ c.accesses k n e u, p ∈ a.projects) ↔
      p ∈ c.2.1.map (·.uuid) ∧ ∃ first, firstReport siblings k n e u = some first ∧
        ∃ a ∈ (components first).accesses k n e u, p ∈ a.projects := by
    intro p
    rw [hacc]
    simp only [List.mem_map, exists_exists_and_eq_and, projects_restrict]
    cases firstReport siblings k n e u with
    | none => simp
    | some first =>
      simp only [Option.elim_some, Option.some.injEq, exists_eq_left', ← and_assoc, exists_and_right]
      exact and_comm
  constructor
  · rintro ⟨-, hall⟩ first hfirst p hp hs
    obtain ⟨-, first', hfirst', ha⟩ := (hlist p).mp ((hall p).mpr ⟨(mem_projects_iff h p).mpr hp, hs⟩)
    rw [hfirst] at hfirst'
    exact Option.some.inj hfirst' ▸ ha
  · intro hcond
    refine ⟨?_, fun p => (hlist p).trans (and_congr_right fun hp => ⟨?_, fun hs => ?_⟩)⟩
    · rw [hacc]
      refine List.forall_mem_map.mpr fun a ha => ?_
      rw [isShared_restrict]
      cases hf : firstReport siblings k n e u with
      | none => rw [hf] at ha; exact nomatch ha
      | some first =>
        rw [hf] at ha
        exact hpriv first (List.mem_of_find?_eq_some hf) a ha
    · rintro ⟨first, hfirst, ha⟩
      exact ⟨first, List.mem_of_find?_eq_some hfirst, ha⟩
    · obtain ⟨s, hmem, a, ha, hpa⟩ := hs
      have hsome : (firstReport siblings k n e u).isSome := by
        refine List.find?_isSome.mpr ⟨s, hmem, ?_⟩
        simpa using List.ne_nil_of_mem ha
      obtain ⟨first, hfirst⟩ := Option.isSome_iff_exists.mp hsome
      exact ⟨first, hfirst, hcond first hfirst p ((mem_projects_iff h p).mp hp) ⟨s, hmem, a, ha, hpa⟩⟩

/-- When the two connections list the same projects for the image, both keep
it. -/
theorem mergeComponents_access_sample : ∃ c,
    mergeComponents [sampleSibling "cms" (.priv ["atlas", "cms"]),
      sampleSibling "atlas" (.priv ["atlas", "cms"])] = .ok c ∧
    ∃ a ∈ Components.accesses c .image "recas" "https://nova.recas.it" "ubuntu",
      "atlas" ∈ a.projects := by
  have hmem : ∀ s ∈ [sampleSibling "cms" (.priv ["atlas", "cms"]),
      sampleSibling "atlas" (.priv ["atlas", "cms"])], (∃ g, s.1.userGroups = [g]) ∧
        DistinctServices s.2.2 ∧
        (components s).accesses .image "recas" "https://nova.recas.it" "ubuntu" =
          [.priv ["atlas", "cms"]] := by
    refine List.forall_mem_cons.mpr ⟨?_, List.forall_mem_singleton.mpr ?_⟩ <;>
      exact ⟨⟨_, rfl⟩, sampleSibling_distinct _ _, by decide⟩
  obtain ⟨c, h⟩ := mergeComponents_total (fun s hs => (hmem s hs).1)
    (fun s hs => distinctUuids_of_nodup (hmem s hs).2.1.uuids)
  refine ⟨c, h, (((mergeComponents_access (fun s hs => (hmem s hs).2.1.endpoints .compute) h .image
    "recas" "https://nova.recas.it" "ubuntu" fun s hs a ha => ?_).mpr ?_).2 "atlas").mpr ⟨?_, ?_⟩⟩
  · rw [(hmem s hs).2.2, List.mem_singleton] at ha
    rw [ha]; rfl
  · rintro first hfirst p - ⟨s, hs, ha⟩
    rw [(hmem s hs).2.2] at ha
    rwa [(hmem first (List.mem_of_find?_eq_some hfirst)).2.2]
  · exact (mem_projects_iff h "atlas").mpr ⟨_, List.mem_cons_of_mem _ List.mem_cons_self, rfl⟩
  · refine ⟨_, List.mem_cons_self, ?_⟩
    rw [(hmem _ List.mem_cons_self).2.2]
    exact ⟨_, List.mem_cons_self, List.mem_cons_self⟩

/-- An image that a project outside the federation shares with two federated
projects, each of which sees only itself among the members: the second loses
its access. -/
theorem access_lost : ∃ c, mergeComponents sampleSiblings = .ok c ∧
    (∀ s ∈ sampleSiblings, (s.2.2.computeServices.map (·.endpoint)).Nodup) ∧
    (∀ s ∈ sampleSiblings,
      ∀ a ∈ (components s).accesses .image "recas" "https://nova.recas.it" "ubuntu",
        a.isShared = false) ∧
    ¬ ∀ p, (∃ a ∈ Components.accesses c .image "recas" "https://nova.recas.it" "ubuntu",
        p ∈ a.projects) ↔ p ∈ c.2.1.map (·.uuid) ∧
      ∃ s ∈ sampleSiblings,
        ∃ a ∈ (components s).accesses .image "recas" "https://nova.recas.it" "ubuntu",
          p ∈ a.projects := by
  have hd := fun s hs => (sampleSiblings_distinct s hs).endpoints .compute
  obtain ⟨c, h⟩ := mergeComponents_total
    (fun s hs => (sampleSiblings_groups s hs).imp fun _ h => h.1)
    (fun s hs => distinctUuids_of_nodup (sampleSiblings_distinct s hs).uuids)
  refine ⟨c, h, hd, by decide, fun hall => ?_⟩
  have hatlas := (hall "atlas").mpr ⟨(mem_projects_iff h "atlas").mpr (by decide), by decide⟩
  rw [accesses_mergeComponents hd h] at hatlas
  simp only [List.mem_map, exists_exists_and_eq_and, projects_restrict] at hatlas
  obtain ⟨a, ha, hp, -⟩ := hatlas
  revert a
  decide

end FRF.Proof
