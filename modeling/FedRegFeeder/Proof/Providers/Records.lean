import FedRegFeeder.Proof.Merge.Access
import FedRegFeeder.Proof.Providers.Slas

/-!
# Where the records of a provider come from

Siblings may report the same thing in different ways. `mergeComponents_records`:
apart from what is merged of it, each record of the result is that of the first
sibling that has it, but a project is that of the last one.
-/

namespace FRF.Spec

open FRF.Impl

/-- `s` is the first sibling that has an entry. -/
def FirstWith (siblings : List Sibling) (entry : Entry) (s : Sibling) : Prop :=
  ∃ before after, siblings = before ++ s :: after ∧ (components s).Has entry ∧
    ∀ b ∈ before, ¬ (components b).Has entry

/-- `s` is the last sibling that has an entry. -/
def LastWith (siblings : List Sibling) (entry : Entry) (s : Sibling) : Prop :=
  ∃ before after, siblings = before ++ s :: after ∧ (components s).Has entry ∧
    ∀ b ∈ after, ¬ (components b).Has entry

/-- A service without what is merged of it. -/
def bare : (k : ServiceKind) → k.Class → k.Class
  | .blockStorage, s => { s with quotas := [] }
  | .compute, s => { s with flavors := [], images := [], quotas := [] }
  | .identity, s => s
  | .network, s => { s with networks := [], quotas := [] }
  | .objectStore, s => { s with quotas := [] }

/-- A sibling has a flavor or an image at the endpoint `e` of the region `n`. -/
def ReportsAt {ρ : Type} (resources : ComputeServiceCreateExtended → List ρ) (s : Sibling) (n e : String)
    (x : ρ) : Prop :=
  s.2.2.name = n ∧ ∃ svc ∈ s.2.2.computeServices, svc.endpoint = e ∧ x ∈ resources svc

/-- Where the records of merged components come from. -/
structure Records (siblings : List Sibling) (c : Components) : Prop where
  identityProviders : ∀ i ∈ c.1, ∃ s, FirstWith siblings (.identityProvider i.endpoint) s ∧
    i = { s.1 with userGroups := i.userGroups }
  userGroups : ∀ i ∈ c.1, ∀ g ∈ i.userGroups, ∃ s,
    FirstWith siblings (.userGroup i.endpoint g.name) s ∧ s.1.userGroups = [g]
  projects : ∀ p ∈ c.2.1, ∃ s, LastWith siblings (.project p.uuid) s ∧ p = s.2.1
  regions : ∀ r ∈ c.2.2, ∃ s, FirstWith siblings (.region r.name) s ∧ r.toRegion = s.2.2.toRegion
  services : ∀ r ∈ c.2.2, ∀ k, ∀ svc ∈ services r k, ∃ s,
    FirstWith siblings (.service r.name k (Service.endpoint svc)) s ∧
      ∃ svc' ∈ services s.2.2 k, bare k svc = bare k svc'
  flavors : ∀ r ∈ c.2.2, ∀ svc ∈ r.computeServices, ∀ f ∈ svc.flavors, ∃ s f',
    FirstWith siblings (.resource r.name .flavor svc.endpoint f.uuid) s ∧
      ReportsAt (·.flavors) s r.name svc.endpoint f' ∧ f = filterProjects (c.2.1.map (·.uuid)) f'
  images : ∀ r ∈ c.2.2, ∀ svc ∈ r.computeServices, ∀ i ∈ svc.images, ∃ s i',
    FirstWith siblings (.resource r.name .image svc.endpoint i.uuid) s ∧
      ReportsAt (·.images) s r.name svc.endpoint i' ∧ i = filterProjects (c.2.1.map (·.uuid)) i'

end FRF.Spec

namespace FRF.Proof

open FRF.Impl FRF.Spec
open Framework

/-! ## The first and the last sibling -/

theorem firstWith_of_map {α : Type} {f : Sibling → α} {siblings : List Sibling} {entry : Entry}
    {key : α → String} {k : String} {before after : List α} {x : α}
    (h : siblings.map f = before ++ x :: after) (hx : key x = k) (hbefore : ∀ b ∈ before, key b ≠ k)
    (hentry : ∀ s, (components s).Has entry ↔ key (f s) = k) :
    ∃ s, FirstWith siblings entry s ∧ f s = x := by
  obtain ⟨l, l₁, rfl, rfl, hl₁⟩ := List.map_eq_append_iff.mp h
  obtain ⟨s, l', rfl, rfl, rfl⟩ := List.map_eq_cons_iff.mp hl₁
  refine ⟨s, ⟨l, l', rfl, (hentry s).mpr hx, fun b hb => ?_⟩, rfl⟩
  rw [hentry]
  exact hbefore _ (List.mem_map_of_mem hb)

theorem firstWith_of_find? {siblings : List Sibling} {entry : Entry} {p : Sibling → Bool}
    {s : Sibling} (h : siblings.find? p = some s)
    (hentry : ∀ s ∈ siblings, (components s).Has entry ↔ p s = true) : FirstWith siblings entry s := by
  obtain ⟨hs, before, after, rfl, hbefore⟩ := List.find?_eq_some_iff_append.mp h
  refine ⟨before, after, rfl, (hentry s ?_).mpr hs, fun b hb => ?_⟩
  · exact List.mem_append_right _ List.mem_cons_self
  · rw [hentry b (List.mem_append_left _ hb), Bool.not_eq_true]
    simpa using hbefore b hb

section
variable {α : Type} {k : ServiceKind} {report : k.Class → First α} {siblings : List Sibling}
  {rs : List RegionCreateExtended} {n e : String}

theorem mem_found_singleton {r : RegionCreateExtended} {a : α} : a ∈ found report [r] n e ↔
    r.name = n ∧ ∃ s ∈ services r k, Service.endpoint s = e ∧ a ∈ (report s).toList := by
  simp only [found, List.mem_flatMap, List.mem_filter, List.mem_singleton, decide_eq_true_eq,
    and_assoc, exists_eq_left]

/-- What is found in merged regions is in the first sibling where anything is
found. -/
theorem first_of_found
    (hw : ∀ c n s : k.Class, Service.updateService c n = .ok s → report s = report c * report n)
    (hd : ∀ s ∈ siblings, DistinctServices s.2.2)
    (hr : mergeAll (fun r : RegionCreateExtended => r.name) updateRegion [] (siblings.map (·.2.2)) = .ok rs)
    {entry : Entry} (hentry : ∀ s, (components s).Has entry ↔ ∃ a, a ∈ found report [s.2.2] n e) {a : α}
    (ha : a ∈ found report rs n e) :
    ∃ s, FirstWith siblings entry s ∧ a ∈ found report [s.2.2] n e := by
  rw [found_merge report hw (fun s hs => (hd s hs).endpoints k) hr] at ha
  cases hfind : siblings.find? fun s => !(found report [s.2.2] n e).isEmpty with
  | none =>
    rw [hfind] at ha
    cases ha
  | some s =>
    rw [hfind] at ha
    refine ⟨s, firstWith_of_find? hfind fun s' _ => (hentry s').trans ?_, ha⟩
    rw [Bool.not_eq_true', List.isEmpty_eq_false_iff_exists_mem]

end

/-! ## The result -/

section
variable {siblings : List Sibling} {c : Components}

theorem bare_updateService : ∀ {k : ServiceKind} {c n s : k.Class},
    Service.updateService c n = .ok s → bare k s = bare k c
  | .blockStorage, _, _, _, h => by cases h; rfl
  | .compute, _, _, _, h => by cases h; rfl
  | .identity, _, _, _, h => by cases h; rfl
  | .network, _, _, _, h => by
    obtain ⟨_, -, rfl⟩ := NetworkServiceCreateExtended.update_eq_ok.mp h
    rfl
  | .objectStore, _, _, _, h => by cases h; rfl

theorem bare_filterService (projects : List String) :
    ∀ {k : ServiceKind} (s : k.Class), bare k (filterService projects k s) = bare k s
  | .blockStorage, _ | .compute, _ | .identity, _ | .network, _ | .objectStore, _ => rfl

theorem has_flavor (s : Sibling) (n e u : String) : (components s).Has (.resource n .flavor e u) ↔
    ∃ f, ReportsAt (·.flavors) s n e f ∧ Resource.uuid f = u := by
  rw [has_resource]
  constructor
  · rintro ⟨hn, svc, hsvc, he, hu⟩
    obtain ⟨f, hf, hfu⟩ := List.mem_map.mp hu
    exact ⟨f, ⟨hn, svc, hsvc, he, hf⟩, hfu⟩
  · rintro ⟨f, ⟨hn, svc, hsvc, he, hf⟩, hfu⟩
    exact ⟨hn, svc, hsvc, he, List.mem_map.mpr ⟨f, hf, hfu⟩⟩

theorem has_image (s : Sibling) (n e u : String) : (components s).Has (.resource n .image e u) ↔
    ∃ i, ReportsAt (·.images) s n e i ∧ Resource.uuid i = u := by
  rw [has_resource]
  constructor
  · rintro ⟨hn, svc, hsvc, he, hu⟩
    obtain ⟨i, hi, hiu⟩ := List.mem_map.mp hu
    exact ⟨i, ⟨hn, svc, hsvc, he, hi⟩, hiu⟩
  · rintro ⟨i, ⟨hn, svc, hsvc, he, hi⟩, hiu⟩
    exact ⟨hn, svc, hsvc, he, List.mem_map.mpr ⟨i, hi, hiu⟩⟩

/-- The record a compute service has of a flavor or an image. -/
def recordReport {ρ : Type} [Resource ρ] (resources : ComputeServiceCreateExtended → List ρ) (u : String)
    (svc : ServiceKind.compute.Class) : First ρ := ⟨(resources svc).filter (Resource.uuid · = u)⟩

section
variable {ρ : Type} [Resource ρ] {resources : ComputeServiceCreateExtended → List ρ} {n e u : String}
  {x : ρ}

theorem recordReport_updateService (hupdate : ∀ c n s : ComputeServiceCreateExtended,
      Service.updateService c n = .ok s → resources s = getUpdatedResources (resources c) (resources n))
    (c n s : ServiceKind.compute.Class) (h : Service.updateService c n = .ok s) :
    recordReport resources u s = recordReport resources u c * recordReport resources u n := by
  have hkept := filter_getUpdatedResources id (resources c) (resources n) u
  simp only [List.map_id] at hkept
  rw [recordReport, hupdate c n s h]
  exact hkept

theorem mem_found_recordReport {s : Sibling} : x ∈ found (recordReport resources u) [s.2.2] n e ↔
    ReportsAt resources s n e x ∧ Resource.uuid x = u := by
  rw [mem_found_singleton]
  simp only [recordReport, List.mem_filter, decide_eq_true_eq]
  constructor
  · rintro ⟨hn, svc, hsvc, he, hx, hu⟩
    exact ⟨⟨hn, svc, hsvc, he, hx⟩, hu⟩
  · rintro ⟨⟨hn, svc, hsvc, he, hx⟩, hu⟩
    exact ⟨hn, svc, hsvc, he, hx, hu⟩

/-- A flavor or an image of the merged regions is the one of the first sibling
that reports it. -/
theorem first_resource {kind : ResourceKind} {rs : List RegionCreateExtended}
    (hd : ∀ s ∈ siblings, DistinctServices s.2.2)
    (hr : mergeAll (fun r : RegionCreateExtended => r.name) updateRegion [] (siblings.map (·.2.2)) = .ok rs)
    (hupdate : ∀ c n s : ComputeServiceCreateExtended, Service.updateService c n = .ok s →
      resources s = getUpdatedResources (resources c) (resources n))
    (hhas : ∀ (s : Sibling) n e u, (components s).Has (.resource n kind e u) ↔
      ∃ x, ReportsAt resources s n e x ∧ Resource.uuid x = u)
    {r : RegionCreateExtended} (hmem : r ∈ rs) {svc : ComputeServiceCreateExtended}
    (hsvc : svc ∈ r.computeServices) (hx : x ∈ resources svc) :
    ∃ s, FirstWith siblings (.resource r.name kind svc.endpoint (Resource.uuid x)) s ∧
      ReportsAt resources s r.name svc.endpoint x := by
  have hfound : x ∈ found (recordReport resources (Resource.uuid x)) rs r.name svc.endpoint := by
    simp only [found, List.mem_flatMap, List.mem_filter, recordReport, decide_eq_true_eq]
    exact ⟨r, ⟨hmem, rfl⟩, svc, ⟨hsvc, rfl⟩, hx, trivial⟩
  obtain ⟨s, hs, hfirst⟩ := first_of_found (recordReport_updateService hupdate) hd hr
    (fun s => (hhas s _ _ _).trans (exists_congr fun y => mem_found_recordReport.symm)) hfound
  exact ⟨s, hs, (mem_found_recordReport.mp hfirst).1⟩

end

/-- The attributes of an identity provider are those of the first sibling that
has it. -/
theorem first_identityProvider {idps : List IdentityProviderCreateExtended}
    (hi : mergeAll (·.endpoint) updateIdp [] (siblings.map (·.1)) = .ok idps)
    {i : IdentityProviderCreateExtended} (hmem : i ∈ idps) :
    ∃ s, FirstWith siblings (.identityProvider i.endpoint) s ∧
      i = { s.1 with userGroups := i.userGroups } := by
  have hkeeps : ∀ c x s, c.endpoint = x.endpoint → updateIdp c x = .ok s →
      { s with userGroups := [] } = { c with userGroups := [] } := by
    intro c x s _ hs
    obtain ⟨g, -, rfl⟩ := updateIdp_eq_ok.mp hs
    split <;> rfl
  obtain ⟨before, x, after, hsplit, hx, hattr, hbefore⟩ := mergeAll_first keepsKey_idp hkeeps hi hmem
  obtain ⟨s, hs, rfl⟩ := firstWith_of_map hsplit hx hbefore fun _ => has_identityProvider
  refine ⟨s, hs, ?_⟩
  calc i = { { i with userGroups := [] } with userGroups := i.userGroups } := rfl
    _ = { s.1 with userGroups := i.userGroups } := by rw [← hattr]

/-- A project is that of the last sibling that has it. -/
theorem last_project {projects : List ProjectCreate}
    (hp : mergeAll (·.uuid) replaceProject [] (siblings.map (·.2.1)) = .ok projects)
    {p : ProjectCreate} (hmem : p ∈ projects) :
    ∃ s, LastWith siblings (.project p.uuid) s ∧ p = s.2.1 := by
  obtain ⟨before, after, hsplit, hafter⟩ := mergeAll_last (fun _ _ => rfl) hp hmem
  obtain ⟨l, l₁, rfl, rfl, hl₁⟩ := List.map_eq_append_iff.mp hsplit
  obtain ⟨s, l', rfl, rfl, rfl⟩ := List.map_eq_cons_iff.mp hl₁
  refine ⟨s, ⟨l, l', rfl, has_project.mpr rfl, fun b hb => ?_⟩, rfl⟩
  rw [has_project]
  exact hafter _ (List.mem_map_of_mem hb)

section
variable {rs : List RegionCreateExtended}

/-- The attributes of a region are those of the first sibling that has it. -/
theorem first_region (hr : mergeAll (·.name) updateRegion [] (siblings.map (·.2.2)) = .ok rs)
    {r : RegionCreateExtended} (hmem : r ∈ rs) :
    ∃ s, FirstWith siblings (.region r.name) s ∧ r.toRegion = s.2.2.toRegion := by
  obtain ⟨before, x, after, hsplit, hx, hattr, hbefore⟩ := mergeAll_first keepsKey_region
    (fun c x s _ hs => (updateRegion_eq_ok.mp hs).1) hr hmem
  obtain ⟨s, hs, rfl⟩ := firstWith_of_map hsplit hx hbefore fun _ => has_region
  exact ⟨s, hs, hattr.symm⟩

/-- The attributes of a service are those of the first sibling that has it. -/
theorem first_service (hd : ∀ s ∈ siblings, DistinctServices s.2.2)
    (hr : mergeAll (fun r : RegionCreateExtended => r.name) updateRegion [] (siblings.map (·.2.2)) = .ok rs)
    {r : RegionCreateExtended} (hmem : r ∈ rs) {k : ServiceKind} {svc : k.Class}
    (hsvc : svc ∈ services r k) : ∃ s,
      FirstWith siblings (.service r.name k (Service.endpoint svc)) s ∧
        ∃ svc' ∈ services s.2.2 k, bare k svc = bare k svc' := by
  have hfound : bare k svc ∈ found (fun svc : k.Class => (⟨[bare k svc]⟩ : First k.Class)) rs r.name
      (Service.endpoint svc) := by
    simp only [found, List.mem_flatMap, List.mem_filter, decide_eq_true_eq, List.mem_singleton]
    exact ⟨r, ⟨hmem, rfl⟩, svc, ⟨hsvc, rfl⟩, rfl⟩
  have hw : ∀ c n s : k.Class, Service.updateService c n = .ok s →
      (⟨[bare k s]⟩ : First k.Class) = ⟨[bare k c]⟩ * ⟨[bare k n]⟩ := by
    intro c n s h
    rw [bare_updateService h, First.mul_def, if_neg (List.cons_ne_nil _ _)]
  have hentry : ∀ s : Sibling, (components s).Has (.service r.name k (Service.endpoint svc)) ↔
      ∃ a, a ∈ found (fun svc : k.Class => (⟨[bare k svc]⟩ : First k.Class)) [s.2.2] r.name
        (Service.endpoint svc) := by
    intro s
    simp only [has_service, mem_found_singleton, List.mem_singleton]
    constructor
    · rintro ⟨hn, svc', hsvc', he⟩
      exact ⟨_, hn, svc', hsvc', he, rfl⟩
    · rintro ⟨_, hn, svc', hsvc', he, -⟩
      exact ⟨hn, svc', hsvc', he⟩
  obtain ⟨s, hs, hfirst⟩ := first_of_found hw hd hr hentry hfound
  obtain ⟨-, svc', hsvc', -, hbare⟩ := mem_found_singleton.mp hfirst
  exact ⟨s, hs, svc', hsvc', List.mem_singleton.mp hbare⟩

end

/-- Apart from what is merged of it, a record of the result is that of the first
sibling that has it; a project is that of the last one. -/
theorem mergeComponents_records (hg : ∀ s ∈ siblings, ∃ g, s.1.userGroups = [g])
    (hd : ∀ s ∈ siblings, DistinctServices s.2.2) (h : mergeComponents siblings = .ok c) :
    Records siblings c := by
  have hgroup := @mem_userGroups_iff siblings c hg h
  obtain ⟨idps, projects, regions⟩ := c
  obtain ⟨hi, hp, rs, hr, rfl⟩ := mergeComponents_eq_ok.mp h
  constructor
  · exact fun i => first_identityProvider hi
  · intro i hi g hg'
    obtain ⟨s, hfind, hs⟩ := hgroup.mp ⟨i, hi, rfl, hg'⟩
    refine ⟨s, firstWith_of_find? hfind fun s hs => ?_, hs⟩
    obtain ⟨g', hg'⟩ := hg s hs
    simp only [has_userGroup, usesGroup, hg', List.map_cons, List.map_nil, List.mem_singleton,
      decide_eq_true_eq, List.cons.injEq, and_true]
    exact and_congr_right fun _ => eq_comm
  · exact fun p => last_project hp
  · intro r hmem
    obtain ⟨r₀, hr₀, rfl⟩ := List.mem_map.mp hmem
    rw [name_filterRegion]
    exact first_region hr hr₀
  · intro r hmem k svc hsvc
    obtain ⟨r₀, hr₀, rfl⟩ := List.mem_map.mp hmem
    rw [services_filterRegion] at hsvc
    obtain ⟨svc₀, hsvc₀, rfl⟩ := List.mem_map.mp hsvc
    rw [endpoint_filterService, bare_filterService]
    exact first_service hd hr hr₀ hsvc₀
  · intro r hmem svc hsvc f hf
    obtain ⟨r₀, hr₀, rfl⟩ := List.mem_map.mp hmem
    obtain ⟨svc₀, hsvc₀, rfl⟩ := List.mem_map.mp hsvc
    obtain ⟨f₀, hf₀, rfl⟩ := List.mem_map.mp hf
    have huuid : (filterProjects (projects.map (·.uuid)) f₀).uuid = f₀.uuid :=
      uuid_filterProjects (ρ := Flavor) _ f₀
    rw [huuid]
    have hupdate : ∀ c n s : ComputeServiceCreateExtended, Service.updateService c n = .ok s →
        s.flavors = getUpdatedResources c.flavors n.flavors := fun c n s h => by cases h; rfl
    obtain ⟨s, hs, hreports⟩ := first_resource hd hr hupdate has_flavor hr₀ hsvc₀ hf₀
    exact ⟨s, f₀, hs, hreports, rfl⟩
  · intro r hmem svc hsvc i hi
    obtain ⟨r₀, hr₀, rfl⟩ := List.mem_map.mp hmem
    obtain ⟨svc₀, hsvc₀, rfl⟩ := List.mem_map.mp hsvc
    obtain ⟨i₀, hi₀, rfl⟩ := List.mem_map.mp hi
    have huuid : (filterProjects (projects.map (·.uuid)) i₀).uuid = i₀.uuid :=
      uuid_filterProjects (ρ := Image) _ i₀
    rw [huuid]
    have hupdate : ∀ c n s : ComputeServiceCreateExtended, Service.updateService c n = .ok s →
        s.images = getUpdatedResources c.images n.images := fun c n s h => by cases h; rfl
    obtain ⟨s, hs, hreports⟩ := first_resource hd hr hupdate has_image hr₀ hsvc₀ hi₀
    exact ⟨s, i₀, hs, hreports, rfl⟩

end

theorem mergeComponents_records_sample :
    ∃ c, mergeComponents sampleSiblings = .ok c ∧ Records sampleSiblings c := by
  have hg := fun s hs => (sampleSiblings_groups s hs).imp fun _ h => h.1
  obtain ⟨c, h⟩ := mergeComponents_total hg
    (fun s hs => distinctUuids_of_nodup (sampleSiblings_distinct s hs).uuids)
  exact ⟨c, h, mergeComponents_records hg sampleSiblings_distinct h⟩

end FRF.Proof
