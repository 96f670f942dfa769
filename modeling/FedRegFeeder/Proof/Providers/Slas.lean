import FedRegFeeder.Framework.First
import FedRegFeeder.Proof.Providers.Quotas

/-!
# The SLAs of a provider

A user group of an issuer keeps, in the components of a provider, the SLA of
the first connection that used it (`mem_userGroups_iff`). So a project keeps
the SLA its configuration names if and only if some connection to it is the
first that used its user group (`mergeComponents_sla`); a project whose group
was used for another project before loses it (`sla_lost`).
-/

namespace FRF.Spec

open FRF.Impl

/-- No connection before `d` used the user group, of the issuer, that `d` used. -/
def FirstOfGroup (data : List ConnectionData) (d : ConnectionData) : Prop :=
  data.find? (fun d' => d'.issuer.endpoint = d.issuer.endpoint ∧
    d'.issuer.userGroups.map (·.name) = d.issuer.userGroups.map (·.name)) = some d

/-- Some user group holds, for the project, the SLA its configuration names. -/
def Components.KeepsSla (c : Components) (p : Project) : Prop :=
  ∃ i ∈ c.1, ∃ g ∈ i.userGroups, g.sla.project = p.id ∧ g.sla.docUuid = p.sla

end FRF.Spec

namespace FRF.Proof

open FRF.Impl FRF.Impl.ProviderThread FRF.Spec
open Framework

/-! ## User groups -/

/-- The groups of a name. -/
def groupsNamed (n : String) (i : IdentityProviderCreateExtended) : First UserGroupCreateExtended :=
  ⟨i.userGroups.filter (·.name = n)⟩

/-- Updating keeps the current group of a name, if there is one. -/
theorem groupsNamed_updateIdp {n : String} {c x s : IdentityProviderCreateExtended}
    (hx : ∃ g, x.userGroups = [g]) (h : updateIdp c x = .ok s) :
    groupsNamed n s = groupsNamed n c * groupsNamed n x := by
  obtain ⟨g, hg⟩ := hx
  obtain ⟨g', hg', rfl⟩ := updateIdp_eq_ok.mp h
  rw [hg, List.head?_cons, Option.some.injEq] at hg'
  subst hg'
  simp only [groupsNamed, First.mul_def, hg]
  by_cases hn : g.name = n
  · rw [List.filter_cons_of_pos (by simpa using hn), List.filter_nil]
    split
    · rename_i hmem
      obtain ⟨g', hg', he⟩ := List.mem_map.mp hmem
      rw [if_neg (List.ne_nil_of_mem (List.mem_filter.mpr ⟨hg', by simpa using he.trans hn⟩))]
    · rename_i hno
      have hnone : c.userGroups.filter (·.name = n) = [] := by
        refine List.filter_eq_nil_iff.mpr fun g' hg' he => hno ?_
        exact List.mem_map.mpr ⟨g', hg', (of_decide_eq_true he).trans hn.symm⟩
      rw [if_pos hnone, List.filter_append, hnone, List.nil_append,
        List.filter_cons_of_pos (by simpa using hn), List.filter_nil]
  · rw [List.filter_cons_of_neg (by simpa using hn), List.filter_nil]
    have hs : (if g.name ∈ c.userGroups.map (·.name) then c
        else { c with userGroups := c.userGroups ++ [g] }).userGroups.filter (·.name = n) =
        c.userGroups.filter (·.name = n) := by
      split
      · rfl
      · rw [List.filter_append, List.filter_cons_of_neg (by simpa using hn), List.filter_nil,
          List.append_nil]
    rw [hs]
    split
    · rename_i hnone; rw [hnone]
    · rfl

/-- The sibling uses the user group `n` of the issuer `e`. -/
def usesGroup (e n : String) (s : Sibling) : Bool :=
  s.1.endpoint = e ∧ s.1.userGroups.map (·.name) = [n]

/-- The product of the siblings' groups of a name is the group of the first
sibling that uses it. -/
theorem mem_prod_groupsNamed {e : String} {g : UserGroupCreateExtended} :
    ∀ {siblings : List Sibling}, (∀ s ∈ siblings, ∃ g, s.1.userGroups = [g]) →
      (g ∈ ((((siblings.map (·.1)).filter (·.endpoint = e)).map (groupsNamed g.name)).prod).toList ↔
        ∃ s, siblings.find? (usesGroup e g.name) = some s ∧ s.1.userGroups = [g])
  | [], _ => by simp
  | s :: siblings, hg => by
    obtain ⟨⟨g', hg'⟩, hg⟩ := List.forall_mem_cons.mp hg
    have ih := mem_prod_groupsNamed (e := e) (g := g) hg
    have huses : usesGroup e g.name s = true ↔ s.1.endpoint = e ∧ g'.name = g.name := by
      simp only [usesGroup, hg', List.map_singleton, List.cons.injEq, and_true, Bool.decide_and,
        Bool.and_eq_true, decide_eq_true_eq]
    rw [List.map_cons, List.find?_cons]
    split
    · rename_i hu
      obtain ⟨he, hn⟩ := huses.mp hu
      have hgroup : groupsNamed g.name s.1 = ⟨[g']⟩ := by
        rw [groupsNamed, hg', List.filter_cons_of_pos (by simpa using hn), List.filter_nil]
      rw [List.filter_cons_of_pos (by simpa using he), List.map_cons, List.prod_cons, hgroup,
        First.mul_def, if_neg (List.cons_ne_nil _ _), List.mem_singleton]
      simp only [Option.some.injEq, exists_eq_left', hg', List.cons.injEq, and_true]
      exact eq_comm
    · rename_i hu
      rw [← ih]
      by_cases he : s.1.endpoint = e
      · have hn : g'.name ≠ g.name := fun hn => by rw [huses.mpr ⟨he, hn⟩] at hu; cases hu
        have hgroup : groupsNamed g.name s.1 = 1 := by
          rw [groupsNamed, hg', List.filter_cons_of_neg (by simpa using hn), List.filter_nil]
          rfl
        rw [List.filter_cons_of_pos (by simpa using he), List.map_cons, List.prod_cons, hgroup,
          one_mul]
      · rw [List.filter_cons_of_neg (by simpa using he)]

/-- A user group of the result is that of the first sibling that uses it. -/
theorem mem_userGroups_iff {siblings : List Sibling} {c : Components}
    (hg : ∀ s ∈ siblings, ∃ g, s.1.userGroups = [g]) (h : mergeComponents siblings = .ok c)
    {e : String} {g : UserGroupCreateExtended} :
    (∃ i ∈ c.1, i.endpoint = e ∧ g ∈ i.userGroups) ↔
      ∃ s, siblings.find? (usesGroup e g.name) = some s ∧ s.1.userGroups = [g] := by
  obtain ⟨idps, projects, regions⟩ := c
  obtain ⟨hi, -, -⟩ := mergeComponents_eq_ok.mp h
  have hprod := mergeAll_empty_prod (w := groupsNamed g.name) (P := fun _ => True)
    (Q := fun i => ∃ g, i.userGroups = [g]) keepsKey_idp
    (fun _ _ _ _ _ hx hu => ⟨trivial, groupsNamed_updateIdp hx hu⟩) (fun _ _ => trivial)
    (List.forall_mem_map.mpr hg) hi e
  have hgroups : (idps.filter (·.endpoint = e)).flatMap (fun i => i.userGroups.filter (·.name = g.name))
      = ((idps.filter (·.endpoint = e)).map (groupsNamed g.name)).prod.toList :=
    First.flatMap_eq_prod (groupsNamed g.name)
      (length_filter_key_le (mergeAll_empty_nodup keepsKey_idp hi) e)
  rw [← mem_prod_groupsNamed hg, ← hprod, ← hgroups]
  simp only [List.mem_flatMap, List.mem_filter, decide_eq_true_eq, and_true, and_assoc]

/-! ## Siblings of connections -/

/-- What the connection to a project contributes. -/
structure SiblingOf (p : Project) (d : ConnectionData) (s : Sibling) : Prop where
  project : s.2.1 = d.project
  endpoint : s.1.endpoint = d.issuer.endpoint
  group : ∃ g, s.1.userGroups = [g] ∧ d.issuer.userGroups.map (·.name) = [g.name] ∧
    g.sla.project = p.id ∧ g.sla.docUuid = p.sla

section
variable {w : World} {t : ProviderThread}

/-- The SLA of the group a connection contributes is the one its project names. -/
theorem siblingOf_produced {p : Region × Project} {d : ConnectionData} {s : Sibling}
    (hd : produced (getProviderData w) t p = some d) (hs : retrieveComponents d = .ok s) :
    SiblingOf p.2 d s := by
  obtain ⟨c, hc, hd⟩ := produced_eq_some.mp hd
  obtain ⟨issuer, a, hissuer, -, rfl⟩ := connect_eq_ok.mp hc
  obtain ⟨i, -, g, -, sla, -, hsla, rfl⟩ := getIssuerMatchingProject_eq_ok hissuer
  obtain ⟨hconf, hissuer, -⟩ := getProviderData_eq_ok rfl hd
  simp only [retrieveComponents, bind_eq_ok, pure_eq_ok, Py.index0_eq_ok, hconf, hissuer, issuerFor,
    List.head?_cons, Option.some.injEq, exists_eq_left'] at hs
  subst hs
  exact ⟨rfl, hissuer ▸ rfl, _, rfl, hissuer ▸ rfl, prepareProjectConf_id _ _, hsla⟩

end

/-! ## Which projects keep their SLA -/

/-- Every data is of a connection to one of the projects, whose id the cloud
returned. -/
def OfProjects (projects : List Project) (data : List ConnectionData) : Prop :=
  ∀ d ∈ data, ∃ p ∈ projects, p.id = d.project.uuid ∧
    ∀ s, retrieveComponents d = .ok s → SiblingOf p d s

section
variable {projects : List Project} {data : List ConnectionData} {siblings : List Sibling}
  {c : Components}

theorem OfProjects.siblingOf (hd : OfProjects projects data)
    (hs : data.mapM retrieveComponents = .ok siblings) :
    ∀ s ∈ siblings, ∃ d ∈ data, ∃ p ∈ projects, p.id = d.project.uuid ∧ SiblingOf p d s := by
  intro s hmem
  obtain ⟨d, hdata, hok⟩ := (mapM_mem_ok hs s).mp hmem
  obtain ⟨p, hp, hid, hsib⟩ := hd d hdata
  exact ⟨d, hdata, p, hp, hid, hsib s hok⟩

/-- The first data that used a group gives the first sibling that uses it. -/
theorem OfProjects.find?_usesGroup (hd : OfProjects projects data)
    (hs : data.mapM retrieveComponents = .ok siblings) (e n : String) (s : Sibling) :
    siblings.find? (usesGroup e n) = some s ↔ ∃ d, data.find? (fun d =>
      d.issuer.endpoint = e ∧ d.issuer.userGroups.map (·.name) = [n]) = some d ∧
        retrieveComponents d = .ok s := by
  refine mapM_find? (fun d hdata s hok => ?_) hs s
  obtain ⟨p, -, -, hsib⟩ := hd d hdata
  obtain ⟨-, hendpoint, g, hg, hname, -⟩ := hsib s hok
  simp only [usesGroup, hendpoint, hg, hname, List.map_singleton]

/-- A project keeps its SLA if and only if some connection to it is the first
that used its user group. -/
theorem OfProjects.keepsSla_iff (hids : (projects.map (·.id)).Nodup) (hd : OfProjects projects data)
    (hs : data.mapM retrieveComponents = .ok siblings) (hc : mergeComponents siblings = .ok c)
    {p : Project} (hp : p ∈ projects) :
    c.KeepsSla p ↔ ∃ d ∈ data, d.project.uuid = p.id ∧ FirstOfGroup data d := by
  have hgroups : ∀ s ∈ siblings, ∃ g, s.1.userGroups = [g] := fun s hmem => by
    obtain ⟨d, -, p, -, -, hsib⟩ := hd.siblingOf hs s hmem
    exact hsib.group.imp fun _ h => h.1
  constructor
  · rintro ⟨i, hi, g, hg, hproject, -⟩
    obtain ⟨s, hfind, hsg⟩ := (mem_userGroups_iff hgroups hc).mp ⟨i, hi, rfl, hg⟩
    obtain ⟨d, hfirst, hok⟩ := (hd.find?_usesGroup hs i.endpoint g.name s).mp hfind
    have hdata := List.mem_of_find?_eq_some hfirst
    obtain ⟨p', -, hid, hsib⟩ := hd d hdata
    obtain ⟨-, -, g', hg', -, hproject', -⟩ := hsib s hok
    rw [hsg, List.cons.injEq] at hg'
    obtain ⟨rfl, -⟩ := hg'
    refine ⟨d, hdata, by rw [← hid, ← hproject', hproject], ?_⟩
    have huses := List.find?_some hfirst
    rw [decide_eq_true_eq] at huses
    rwa [FirstOfGroup, huses.1, huses.2]
  · rintro ⟨d, hdata, huuid, hfirst⟩
    obtain ⟨p', hp', hid, hsib⟩ := hd d hdata
    obtain rfl : p' = p := List.inj_on_of_nodup_map hids hp' hp (hid.trans huuid)
    obtain ⟨s, hok⟩ := mapM_ok_of_mem hs hdata
    obtain ⟨-, -, g, hg, hname, hproject, hsla⟩ := hsib s hok
    rw [FirstOfGroup, hname] at hfirst
    have hfind := (hd.find?_usesGroup hs d.issuer.endpoint g.name s).mpr ⟨d, hfirst, hok⟩
    obtain ⟨i, hi, -, hgi⟩ := (mem_userGroups_iff hgroups hc).mpr ⟨s, hfind, hg⟩
    exact ⟨i, hi, g, hgi, hproject, hsla⟩

end

/-- The data of a run is of connections to the configured projects. -/
theorem ofProjects_getProvider {w : World} {t : ProviderThread} {parallel : Bool} {conf : Provider}
    {data : List ConnectionData} {error : Bool} {s : Log Attempt}
    (hrun : (getProvider (getProviderData w) t parallel).run {} = .ok ((conf, data, error), s))
    (hid : ∀ d ∈ data, d.providerConf.projects.map (·.id) = [d.project.uuid]) :
    OfProjects t.providerConf.projects data := by
  by_cases ht : t.providerConf.status = .active
  · obtain ⟨-, hres⟩ := (getProvider_eq_ok _ ht).mp hrun
    cases hres
    intro d hdata
    obtain ⟨p, hp, hd⟩ := List.mem_filterMap.mp hdata
    refine ⟨p.2, (mem_pairs.mp hp).2, ?_, fun s => siblingOf_produced hd⟩
    obtain ⟨c, -, -, hprojects, hconf, -⟩ := produced_dataOf hp hd
    have huuid := hid d hdata
    rw [hconf, hprojects, List.map_singleton, prepareProjectConf_id, List.cons.injEq] at huuid
    exact huuid.1
  · rw [getProvider_inactive _ ht] at hrun
    cases hrun
    exact List.forall_mem_nil _

/-- Every merged project is configured, and some user group of an identity
provider holds for it the SLA its configuration names if and only if a
connection to it was the first that used its user group. -/
theorem mergeComponents_sla {w : World} {t : ProviderThread} {parallel : Bool} {conf : Provider}
    {data : List ConnectionData} {error : Bool} {s : Log Attempt} {siblings : List Sibling}
    {c : Components} (hv : t.providerConf.validate = .ok ())
    (hrun : (getProvider (getProviderData w) t parallel).run {} = .ok ((conf, data, error), s))
    (hid : ∀ d ∈ data, d.providerConf.projects.map (·.id) = [d.project.uuid])
    (hs : data.mapM retrieveComponents = .ok siblings) (hc : mergeComponents siblings = .ok c) :
    ∀ u ∈ c.2.1.map (·.uuid), ∃ p ∈ t.providerConf.projects, p.id = u ∧
      (c.KeepsSla p ↔ ∃ d ∈ data, d.project.uuid = u ∧ FirstOfGroup data d) := by
  obtain ⟨-, -, hids, -⟩ := Provider.validate_eq_ok hv
  have hd := ofProjects_getProvider hrun hid
  intro u hu
  obtain ⟨-, hp, -⟩ := mergeComponents_eq_ok.mp hc
  obtain ⟨sibling, hsibling, rfl⟩ := (mergeAll_map_mem_keys keepsKey_project hp u).mp hu
  obtain ⟨d, -, p, hp, hpid, hsib⟩ := hd.siblingOf hs sibling hsibling
  have hpu : p.id = sibling.2.1.uuid := by rw [hpid, hsib.project]
  exact ⟨p, hp, hpu, hpu ▸ hd.keepsSla_iff hids hs hc hp⟩

/-- An issuer with one user group, which owns an SLA for each of two namespaces. -/
def sharedGroupIssuer : Issuer := { sampleIssuer with
  userGroups := [{ name := "users", slas :=
    [{ docUuid := "atlas-sla", startDate := "2024-01-01", endDate := "2025-01-01" },
      { docUuid := "cms-sla", startDate := "2024-01-01", endDate := "2025-01-01" }] }] }

def sharedGroupConf : Provider := { sampleConf with
  projects := [{ id := "atlas", sla := "atlas-sla" }, { id := "cms", sla := "cms-sla" }] }

def sharedGroupSite : SiteConfig := kubernetesSite sharedGroupIssuer sharedGroupConf rfl

def sharedGroupThread : ProviderThread :=
  { providerConf := sharedGroupConf, issuers := sharedGroupSite.trustedIdps }

/-- Both connections succeed. -/
theorem sharedGroup_run : ∃ data error s siblings c,
    (getProvider (getProviderData (kubernetesWorld (.ok "token") sampleCluster)) sharedGroupThread
      true).run {} = .ok ((sharedGroupConf, data, error), s) ∧
    (∀ d ∈ data, d.providerConf.projects.map (·.id) = [d.project.uuid]) ∧
    data.mapM retrieveComponents = .ok siblings ∧ mergeComponents siblings = .ok c ∧
    c.2.1.map (·.uuid) = ["atlas", "cms"] ∧
    c.1.flatMap (fun i => i.userGroups.map fun g => (g.sla.project, g.sla.docUuid)) =
      [("atlas", "atlas-sla")] := by
  refine ⟨_, _, _, _, _, rfl, ?_, rfl, rfl, rfl, rfl⟩
  exact List.forall_mem_cons.mpr ⟨rfl, List.forall_mem_singleton.mpr rfl⟩

theorem mergeComponents_sla_sample : ∃ data siblings c,
    data.mapM retrieveComponents = .ok siblings ∧ mergeComponents siblings = .ok c ∧
    ∀ u ∈ c.2.1.map (·.uuid), ∃ p ∈ sharedGroupConf.projects, p.id = u ∧
      (Components.KeepsSla c p ↔ ∃ d ∈ data, d.project.uuid = u ∧ FirstOfGroup data d) := by
  obtain ⟨data, error, s, siblings, c, hrun, hid, hs, hc, -⟩ := sharedGroup_run
  exact ⟨data, siblings, c, hs, hc, mergeComponents_sla rfl hrun hid hs hc⟩

/-- The second namespace loses its SLA: its user group is already there. -/
theorem sla_lost : sharedGroupSite.validate = .ok () ∧ ∃ data error s siblings c,
    (getProvider (getProviderData (kubernetesWorld (.ok "token") sampleCluster)) sharedGroupThread
      true).run {} = .ok ((sharedGroupConf, data, error), s) ∧
    (∀ d ∈ data, d.providerConf.projects.map (·.id) = [d.project.uuid]) ∧
    data.mapM retrieveComponents = .ok siblings ∧ mergeComponents siblings = .ok c ∧
    ¬ ∀ u ∈ c.2.1.map (·.uuid), ∃ p ∈ sharedGroupConf.projects, p.id = u ∧
      Components.KeepsSla c p := by
  obtain ⟨data, error, s, siblings, c, hrun, hid, hs, hc, hprojects, hslas⟩ := sharedGroup_run
  refine ⟨by decide, data, error, s, siblings, c, hrun, hid, hs, hc, fun h => ?_⟩
  obtain ⟨p, -, hp, i, hi, g, hg, hproject, -⟩ := h "cms" (hprojects ▸ by decide)
  have hmem : (g.sla.project, g.sla.docUuid) ∈ [("atlas", "atlas-sla")] :=
    hslas ▸ List.mem_flatMap.mpr ⟨i, hi, List.mem_map.mpr ⟨g, hg, rfl⟩⟩
  rw [List.mem_singleton, hproject, hp] at hmem
  have hne : "cms" = "atlas" := congrArg Prod.fst hmem
  exact absurd hne (by decide)

end FRF.Proof
