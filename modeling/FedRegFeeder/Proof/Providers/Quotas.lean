import Mathlib.Data.List.ProdSigma
import FedRegFeeder.Framework.Counts
import FedRegFeeder.Proof.Merge.Components
import FedRegFeeder.Proof.Providers.Data
import FedRegFeeder.Proof.Providers.Errors

/-!
# Quotas of a provider

A service of a provider has at most one quota of each kind on each project
(`createProvider_quotas`). Merging only concatenates quotas, so the bound is
that of the pairs: the quotas of a service on a project come from one pair of
a region and a project (`pair_eq`), and a connection attaches to a service at
most one quota of each kind (`countP_serviceQuotas`).
-/

namespace FRF.Spec

open FRF.Impl

/-- What a quota tells: how much a project may use, how much it uses, or how
much each of its users may use. -/
inductive QuotaKind where
  | limit | usage | perUser
deriving DecidableEq, Repr

/-- A quota of the given kind on the given project. -/
def QuotaKind.On : QuotaKind → String → QuotaCreateExtended → Prop
  | .limit, project, q => q.project = project ∧ q.usage = false ∧ q.perUser = false
  | .usage, project, q => q.project = project ∧ q.usage = true
  | .perUser, project, q => q.project = project ∧ q.perUser = true

instance (kind : QuotaKind) (project : String) : DecidablePred (kind.On project) := fun q => by
  cases kind <;> exact inferInstanceAs (Decidable (_ ∧ _))

/-- No limit sets the usage flag. -/
def Limits.NoUsage (l : Limits) : Prop := ∀ q : PerUserQuota, Limits.Has l q → q.val.usage = false

/-- No configured limit sets the usage flag. -/
def Provider.NoUsage (conf : Provider) : Prop :=
  ∀ p ∈ conf.projects, Limits.NoUsage p.perUserLimits ∧
    ∀ props ∈ p.perRegionProps, Limits.NoUsage props.perUserLimits

end FRF.Spec

namespace FRF.Proof

open FRF.Impl FRF.Impl.ProviderThread FRF.Spec
open Framework

/-! ## One connection -/

/-- A connection attaches to a service at most one quota of each kind, and
none on another project. -/
theorem countP_serviceQuotas {project : String} {limits : Limits} {l : List QuotaCreateExtended}
    (hl : Limits.NoUsage limits) (h : ServiceQuotas project limits l) (kind : QuotaKind)
    (p : String) : l.countP (kind.On p) ≤ if project = p then 1 else 0 := by
  obtain ⟨⟨q₁, q₂⟩, ⟨h₁, ⟨hu₁, hp₁⟩, h₂, hu₂, hp₂⟩, hq⟩ := h
  simp only at h₁ hu₁ hp₁ h₂ hu₂ hp₂
  rcases hq with rfl | ⟨limit, hlimit, rfl⟩
  · cases kind <;> by_cases hp : project = p <;>
      simp [withPerUser, QuotaKind.On, h₁, hu₁, hp₁, h₂, hu₂, hp₂, hp]
  · obtain ⟨q₃, hq₃⟩ : ∃ q, q = limit.on project := ⟨_, rfl⟩
    have h₃ : q₃.project = project := hq₃ ▸ rfl
    have hu₃ : q₃.usage = false := hq₃ ▸ hl limit hlimit
    have hp₃ : q₃.perUser = true := hq₃ ▸ limit.property
    rw [← hq₃]
    cases kind <;> by_cases hp : project = p <;>
      simp [withPerUser, QuotaKind.On, h₁, hu₁, hp₁, h₂, hu₂, hp₂, h₃, hu₃, hp₃, hp]

theorem quotasOf_cons {σ : Type} [Service σ] (s : σ) (l : List σ) (e : String) :
    quotasOf (s :: l) e =
      (if Service.endpoint s = e then (Service.quotas s : Multiset QuotaCreateExtended) else 0) +
        quotasOf l e := by
  rw [quotasOf, List.map_cons, List.sum_cons, quotasOf]

theorem quotasOf_eq_zero {σ : Type} [Service σ] {l : List σ} {e : String}
    (h : e ∉ l.map Service.endpoint) : quotasOf l e = 0 := by
  refine List.sum_eq_zero fun m hm => ?_
  obtain ⟨s, hs, rfl⟩ := List.mem_map.mp hm
  refine if_neg fun he => h ?_
  exact he ▸ List.mem_map_of_mem hs

/-- When the endpoints of services are distinct, the quotas at an endpoint are
those of one service. -/
theorem quotasOf_cases {σ : Type} [Service σ] (e : String) :
    ∀ {l : List σ}, (l.map Service.endpoint).Nodup → quotasOf l e = 0 ∨
      ∃ s ∈ l, quotasOf l e = (Service.quotas s : Multiset QuotaCreateExtended)
  | [], _ => .inl rfl
  | s :: l, h => by
    rw [List.map_cons, List.nodup_cons] at h
    rw [quotasOf_cons]
    by_cases he : Service.endpoint s = e
    · rw [if_pos he, quotasOf_eq_zero (he ▸ h.1), add_zero]
      exact .inr ⟨s, List.mem_cons_self, rfl⟩
    · rw [if_neg he, zero_add]
      exact (quotasOf_cases e h.2).imp id fun ⟨s', hs', hq⟩ =>
        ⟨s', List.mem_cons_of_mem _ hs', hq⟩

/-- Of each kind there is at most one quota at an endpoint, and none on
another project. -/
theorem DataOf.countP_quotasOf {providerConf : Provider} {issuer : Issuer} {limits : Limits}
    {P : String → Prop} {d : ConnectionData} (hd : DataOf providerConf issuer limits P d)
    (hl : Limits.NoUsage limits) {k : ServiceKind} (hn : ((dataServices d k).map Service.endpoint).Nodup)
    (e : String) (kind : QuotaKind) (project : String) :
    (quotasOf (dataServices d k) e).countP (kind.On project) ≤ 1 ∧
      (0 < (quotasOf (dataServices d k) e).countP (kind.On project) → P project) := by
  rcases quotasOf_cases e hn with h0 | ⟨s, hs, hq⟩
  · rw [h0]
    exact ⟨Nat.zero_le _, fun h => absurd h (Nat.lt_irrefl 0)⟩
  · rw [hq, Multiset.coe_countP]
    rcases hd.2.2 k s hs with h0 | ⟨project', hP, hq⟩
    · rw [h0]
      exact ⟨Nat.zero_le _, fun h => absurd h (Nat.lt_irrefl 0)⟩
    · have hle := countP_serviceQuotas hl hq kind project
      split at hle
      · rename_i hp
        exact ⟨hle, fun _ => hp ▸ hP⟩
      · exact ⟨hle.trans (Nat.zero_le 1), fun hpos => absurd hle (by omega)⟩

/-! ## The pairs -/

section
variable {w : World} {t : ProviderThread}

theorem prepareProjectConf_noUsage {p : Project} (n : String) (hp : Limits.NoUsage p.perUserLimits)
    (hr : ∀ props ∈ p.perRegionProps, Limits.NoUsage props.perUserLimits) :
    Limits.NoUsage (prepareProjectConf p n).perUserLimits := by
  simp only [prepareProjectConf]
  split
  · exact hp
  · rename_i props hprops
    exact hr props (List.mem_of_find?_eq_some hprops)

theorem produced_eq_some {retrieve : ConnectionThread → Except Py.PyError ConnectionData}
    {p : Region × Project} {d : ConnectionData} :
    produced retrieve t p = some d ↔ ∃ c, connect t p.1 p.2 = .ok c ∧ retrieve c = .ok d := by
  simp only [produced]
  cases connect t p.1 p.2 with
  | error e => simp [Except.toOption]
  | ok c => cases hc : retrieve c <;> simp [Except.toOption, hc]

/-- The data of a pair is that of a connection for its region and project. -/
theorem produced_dataOf {p : Region × Project} {d : ConnectionData} (hp : p ∈ pairs t.providerConf)
    (hd : produced (getProviderData w) t p = some d) : ∃ c ∈ connections t,
      c.providerConf.regions = [p.1] ∧ c.providerConf.projects = [prepareProjectConf p.2 p.1.name] ∧
      DataOf c.providerConf c.issuer (prepareProjectConf p.2 p.1.name).perUserLimits
        (cloudProject w c = some ·) d := by
  obtain ⟨c, hc, hd⟩ := produced_eq_some.mp hd
  have hmem : c ∈ connections t := mem_connections.mpr ⟨p, hp, hc⟩
  obtain ⟨issuer, a, -, -, rfl⟩ := connect_eq_ok.mp hc
  exact ⟨_, hmem, rfl, rfl, getProviderData_eq_ok rfl hd⟩

theorem pairs_eq_product (providerConf : Provider) :
    pairs providerConf = providerConf.regions ×ˢ providerConf.projects := rfl

theorem mem_pairs {providerConf : Provider} {p : Region × Project} :
    p ∈ pairs providerConf ↔ p.1 ∈ providerConf.regions ∧ p.2 ∈ providerConf.projects := by
  rw [pairs_eq_product, List.mem_product]

theorem nodup_pairs {providerConf : Provider} (h : providerConf.validate = .ok ()) :
    (pairs providerConf).Nodup := by
  obtain ⟨-, hr, hp, -⟩ := Provider.validate_eq_ok h
  exact List.Nodup.product (List.Nodup.of_map _ hr) (List.Nodup.of_map _ hp)

/-- A pair is known by the name of its region and the id of its project. -/
theorem pair_eq {providerConf : Provider} (h : providerConf.validate = .ok ())
    {p q : Region × Project} (hp : p ∈ pairs providerConf) (hq : q ∈ pairs providerConf)
    (hr : p.1.name = q.1.name) (hi : p.2.id = q.2.id) : p = q := by
  obtain ⟨-, hregions, hprojects, -⟩ := Provider.validate_eq_ok h
  obtain ⟨hp₁, hp₂⟩ := mem_pairs.mp hp
  obtain ⟨hq₁, hq₂⟩ := mem_pairs.mp hq
  exact Prod.ext (List.inj_on_of_nodup_map hregions hp₁ hq₁ hr)
    (List.inj_on_of_nodup_map hprojects hp₂ hq₂ hi)

/-- How many quotas of a kind the data of a connection has at an endpoint of the
region `n`. -/
def quotaCount (n : String) (k : ServiceKind) (e : String) (kind : QuotaKind) (project : String)
    (d : ConnectionData) : Nat :=
  if d.providerConf.regions.map (·.name) = [n] then
    (quotasOf (dataServices d k) e).countP (kind.On project)
  else 0

/-- Different configured projects are known to the cloud by different ids. -/
def DistinctCloudProjects (w : World) (t : ProviderThread) : Prop :=
  ∀ c ∈ connections t, ∀ c' ∈ connections t, ∀ project,
    cloudProject w c = some project → cloudProject w c' = some project →
      c.providerConf.projects.map (·.id) = c'.providerConf.projects.map (·.id)

/-- Namespaces are known to a cluster by the ids they are configured with. -/
theorem distinctCloudProjects_kubernetes {caPath : Option String}
    (h : t.providerConf.kind = .kubernetes caPath) : DistinctCloudProjects w t := by
  have hid : ∀ c ∈ connections t, ∀ project, cloudProject w c = some project →
      c.providerConf.projects.map (·.id) = [project] := by
    intro c hc project hproject
    obtain ⟨p, -, hp⟩ := mem_connections.mp hc
    obtain ⟨issuer, a, -, -, rfl⟩ := connect_eq_ok.mp hp
    simp only [cloudProject, h, List.head?_cons, Option.bind_eq_bind, Option.bind_some,
      Option.some.injEq] at hproject
    rw [List.map_singleton, hproject]
  intro c hc c' hc' project hproject hproject'
  rw [hid c hc project hproject, hid c' hc' project hproject']

section
variable (n : String) (k : ServiceKind) (e : String) (kind : QuotaKind) (project : String)

/-- What a pair that adds a quota is: it adds one, its region is `n`, and its
project is known to the cloud as `project`. -/
theorem quotaCount_pair (hl : Provider.NoUsage t.providerConf) {p : Region × Project}
    (hp : p ∈ pairs t.providerConf) {d : ConnectionData}
    (hd : produced (getProviderData w) t p = some d)
    (hn : ((dataServices d k).map Service.endpoint).Nodup) :
    quotaCount n k e kind project d ≤ 1 ∧ (0 < quotaCount n k e kind project d →
      p.1.name = n ∧ ∃ c ∈ connections t, cloudProject w c = some project ∧
        c.providerConf.projects.map (·.id) = [p.2.id]) := by
  obtain ⟨c, hc, hregions, hprojects, hd⟩ := produced_dataOf hp hd
  obtain ⟨hlimit, hprops⟩ := hl p.2 (mem_pairs.mp hp).2
  obtain ⟨hle, hpos⟩ :=
    hd.countP_quotasOf (prepareProjectConf_noUsage p.1.name hlimit hprops) hn e kind project
  have hname : d.providerConf.regions.map (·.name) = [p.1.name] := by
    rw [hd.1, hregions, List.map_singleton]
  simp only [quotaCount, hname, List.cons.injEq, and_true]
  split
  · rename_i hr
    refine ⟨hle, fun h => ⟨hr, c, hc, hpos h, ?_⟩⟩
    rw [hprojects, List.map_singleton, prepareProjectConf_id]
  · exact ⟨Nat.zero_le _, fun h => absurd h (Nat.lt_irrefl 0)⟩

/-- Over all pairs there is at most one quota. -/
theorem sum_quotaCount_le (hv : t.providerConf.validate = .ok ())
    (hl : Provider.NoUsage t.providerConf) (hcloud : DistinctCloudProjects w t)
    (hn : ∀ d ∈ (pairs t.providerConf).filterMap (produced (getProviderData w) t),
      ((dataServices d k).map Service.endpoint).Nodup) :
    (((pairs t.providerConf).filterMap (produced (getProviderData w) t)).map
      (quotaCount n k e kind project)).sum ≤ 1 := by
  have hpair : ∀ p ∈ pairs t.providerConf, ∀ d, produced (getProviderData w) t p = some d → _ :=
    fun p hp d hd => quotaCount_pair n k e kind project hl hp hd
      (hn d (List.mem_filterMap.mpr ⟨p, hp, hd⟩))
  rw [sum_filterMap]
  refine sum_le_one (nodup_pairs hv) (fun p hp => ?_) fun p hp q hq hp₀ hq₀ => ?_
  · cases hd : produced (getProviderData w) t p with
    | none => exact Nat.zero_le _
    | some d => exact (hpair p hp d hd).1
  · cases hd : produced (getProviderData w) t p with
    | none => rw [hd] at hp₀; exact absurd hp₀ (Nat.lt_irrefl 0)
    | some d =>
      cases hd' : produced (getProviderData w) t q with
      | none => rw [hd'] at hq₀; exact absurd hq₀ (Nat.lt_irrefl 0)
      | some d' =>
        rw [hd] at hp₀
        rw [hd'] at hq₀
        obtain ⟨hr, c, hc, hproject, hid⟩ := (hpair p hp d hd).2 hp₀
        obtain ⟨hr', c', hc', hproject', hid'⟩ := (hpair q hq d' hd').2 hq₀
        have hids := hcloud c hc c' hc' project hproject hproject'
        rw [hid, hid', List.cons.injEq] at hids
        exact pair_eq hv hp hq (hr.trans hr'.symm) hids.1

end

/-! ## The provider -/

variable {validate : ProviderCreateExtended → Except Py.PyError Unit}

/-- A service has at most the quotas that the data of the connections have at
its endpoint in its region. -/
theorem createProvider_countP_le {conf : Provider} {data : List ConnectionData} {error : Bool}
    {provider : ProviderCreateExtended} (hr : ∀ d ∈ data, ∃ r, d.providerConf.regions = [r])
    (h : createProvider validate conf data error = .ok provider) {r : RegionCreateExtended}
    (hmem : r ∈ provider.regions) {k : ServiceKind} {svc : k.Class} (hsvc : svc ∈ services r k)
    (kind : QuotaKind) (project : String) :
    (Service.quotas svc).countP (kind.On project) ≤
      (data.map (quotaCount r.name k (Service.endpoint svc) kind project)).sum := by
  obtain ⟨siblings, c, hsiblings, hc, -, rfl⟩ := createProvider_eq_ok.mp h
  have hquotas := mergeComponents_quotas hc r.name k (Service.endpoint svc)
  -- the quotas of the service are among those at its endpoint
  have hle : (Service.quotas svc : Multiset QuotaCreateExtended).countP (kind.On project) ≤
      (Components.quotasAt c r.name k (Service.endpoint svc)).countP (kind.On project) := by
    calc _ ≤ (quotasOf (services r k) (Service.endpoint svc)).countP (kind.On project) :=
          countP_le_countP_sum (List.mem_map.mpr ⟨svc, hsvc, if_pos rfl⟩)
      _ ≤ _ := countP_le_countP_sum (List.mem_map.mpr ⟨r, hmem, if_pos rfl⟩)
  rw [Multiset.coe_countP, hquotas, countP_sum, List.map_map] at hle
  refine hle.trans (le_of_eq (congrArg List.sum (mapM_map_eq (fun d hd s hs => ?_) hsiblings)))
  obtain ⟨r', hr'⟩ := hr d hd
  obtain ⟨hname, hservices⟩ := services_retrieveComponents hr' hs
  simp only [Function.comp_apply, components, Components.quotasAt, List.map_singleton,
    List.sum_singleton, hname, hservices, quotaCount, hr', List.cons.injEq, and_true]
  split
  · rfl
  · exact Multiset.countP_zero _

/-- In each service of each region of the provider there is, for each project,
at most one quota that is neither usage nor per-user, at most one usage quota
and at most one per-user quota. -/
theorem createProvider_quotas {parallel : Bool} {conf : Provider} {data : List ConnectionData}
    {error : Bool} {s : Log Attempt} {provider : ProviderCreateExtended}
    (hv : t.providerConf.validate = .ok ()) (hl : Provider.NoUsage t.providerConf)
    (hcloud : DistinctCloudProjects w t)
    (hrun : (getProvider (getProviderData w) t parallel).run {} = .ok ((conf, data, error), s))
    (hn : ∀ d ∈ data, ∀ k, ((dataServices d k).map Service.endpoint).Nodup)
    (hp : createProvider validate conf data error = .ok provider) :
    ∀ r ∈ provider.regions, ∀ k, ∀ svc ∈ services r k, ∀ project,
      ∀ kind : QuotaKind, (Service.quotas svc).countP (kind.On project) ≤ 1 := by
  intro r hr k svc hsvc project kind
  by_cases ht : t.providerConf.status = .active
  · obtain ⟨-, hres⟩ := (getProvider_eq_ok _ ht).mp hrun
    cases hres
    refine (createProvider_countP_le (fun d hd => ?_) hp hr hsvc kind project).trans
      (sum_quotaCount_le _ _ _ _ _ hv hl hcloud fun d hd => hn d hd k)
    obtain ⟨p, hpair, hd⟩ := List.mem_filterMap.mp hd
    obtain ⟨c, -, hregions, -, hd⟩ := produced_dataOf hpair hd
    exact ⟨p.1, hd.1 ▸ hregions⟩
  · rw [getProvider_inactive _ ht] at hrun
    cases hrun
    exact (createProvider_countP_le (List.forall_mem_nil _) hp hr hsvc kind project).trans
      (Nat.zero_le 1)

end

/-- A cluster that answers, and limits nothing. -/
def sampleCluster : Cluster where
  listNamespacedResourceQuota _ := .ok []
  listStorageClass := .ok []

/-- A Kubernetes provider with two namespaces, each with a per-user limit. -/
def twoNamespaces : ProviderThread :=
  { twoProjects with
    providerConf := { twoProjects.providerConf with
      kind := .kubernetes none
      projects := twoProjects.providerConf.projects.map fun p =>
        { p with
          perUserLimits := { compute := some (Limits.setPerUser { figures := [("pods", some 5)] }) } } } }

/-- The compute service has the limits, the usage and the per-user limits of
both projects. -/
theorem createProvider_quotas_sample : ∃ data error s provider,
    (getProvider (getProviderData (kubernetesWorld (.ok "token") sampleCluster)) twoNamespaces true).run
      {} = .ok ((twoNamespaces.providerConf, data, error), s) ∧
    createProvider (fun _ => .ok ()) twoNamespaces.providerConf data error = .ok provider ∧
    (provider.regions.map fun r => r.computeServices.map (·.quotas.length)) = [[6]] ∧
    ∀ r ∈ provider.regions, ∀ k, ∀ svc ∈ services r k, ∀ project,
      ∀ kind : QuotaKind, (Service.quotas svc).countP (kind.On project) ≤ 1 := by
  have hrun : ∃ data error s provider,
      (getProvider (getProviderData (kubernetesWorld (.ok "token") sampleCluster)) twoNamespaces
        true).run {} = .ok ((twoNamespaces.providerConf, data, error), s) ∧
      createProvider (fun _ => .ok ()) twoNamespaces.providerConf data error = .ok provider ∧
      (provider.regions.map fun r => r.computeServices.map (·.quotas.length)) = [[6]] ∧
      ∀ d ∈ data, ∀ k, ((dataServices d k).map Service.endpoint).Nodup := by
    refine ⟨_, _, _, _, rfl, rfl, rfl, fun d hd k => ?_⟩
    rcases List.mem_pair.mp hd with rfl | rfl <;> cases k <;>
      first | exact List.nodup_nil | exact List.nodup_singleton _
  obtain ⟨data, error, s, provider, hrun, hp, hsix, hn⟩ := hrun
  have hl : Provider.NoUsage twoNamespaces.providerConf := by
    intro p hp
    rcases List.mem_pair.mp hp with rfl | rfl <;> refine ⟨fun q hq => ?_, List.forall_mem_nil _⟩ <;>
      rcases hq with h | h | h | h <;> cases h <;> rfl
  exact ⟨data, error, s, provider, hrun, hp, hsix,
    createProvider_quotas (by decide) hl (distinctCloudProjects_kubernetes rfl) hrun hn hp⟩

end FRF.Proof
