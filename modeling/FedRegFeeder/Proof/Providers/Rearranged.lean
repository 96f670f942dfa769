import FedRegFeeder.Proof.Providers.Sound

/-!
# The order of the configuration

The connections of a provider are prepared and merged in the order of its
regions and projects, and the first of them sets most of what is merged. When
its clouds list nothing twice, its content does not depend on that order, nor
on whether they are tried in parallel: `createProvider_rearranged`.
-/

namespace FRF.Spec

open FRF.Impl

/-- The same provider, its regions and its projects in another order. -/
structure Rearranged (t t' : ProviderThread) : Prop where
  conf : t'.providerConf = { t.providerConf with
    regions := t'.providerConf.regions, projects := t'.providerConf.projects }
  issuers : t'.issuers = t.issuers
  regions : t.providerConf.regions.Perm t'.providerConf.regions
  projects : t.providerConf.projects.Perm t'.providerConf.projects

/-- Providers with the same status, the same entries and, at each service, the
same quotas, whatever the order they are listed in. -/
structure SameContent (p p' : ProviderCreateExtended) : Prop where
  name : p'.name = p.name
  type : p'.type = p.type
  isPublic : p'.isPublic = p.isPublic
  supportEmails : p'.supportEmails = p.supportEmails
  status : p'.status = p.status
  entries : ∀ entry, (componentsOf p').Has entry ↔ (componentsOf p).Has entry
  quotas : ∀ n k e, (componentsOf p').quotasAt n k e = (componentsOf p).quotasAt n k e

end FRF.Spec

namespace FRF.Proof

open FRF.Impl FRF.Impl.ProviderThread FRF.Spec
open Framework

/-! ## The run -/

section
variable {t t' : ProviderThread}

/-- A connection is prepared from what is not reordered. -/
theorem connect_rearranged (h : Rearranged t t') : connect t' = connect t := by
  funext r p
  simp only [connect, getAuthMethodMatchingIssuer]
  rw [h.issuers, h.conf]

theorem pairs_rearranged (h : Rearranged t t') : (pairs t.providerConf).Perm (pairs t'.providerConf) := by
  rw [pairs_eq_product, pairs_eq_product]
  exact h.regions.product h.projects

theorem connections_rearranged (h : Rearranged t t') : (connections t).Perm (connections t') := by
  rw [connections, connections, connect_rearranged h]
  exact (pairs_rearranged h).filterMap _

/-- In another order, a run returns as well, with the same data in another
order and the same error, and has tried the same. -/
theorem getProvider_rearranged (h : Rearranged t t')
    {retrieve : ConnectionThread → Except Py.PyError ConnectionData} {parallel : Bool} {conf : Provider}
    {data : List ConnectionData} {error : Bool} {s : Log Attempt}
    (hrun : (getProvider retrieve t parallel).run {} = .ok ((conf, data, error), s)) (parallel' : Bool) :
    ∃ data' s', (getProvider retrieve t' parallel').run {} = .ok ((t'.providerConf, data', error), s') ∧
      data.Perm data' ∧ s.attempts.Perm s'.attempts := by
  have hstatus : t'.providerConf.status = t.providerConf.status := by rw [h.conf]
  have hproduced : produced retrieve t' = produced retrieve t := by
    funext p
    rw [produced, produced, connect_rearranged h]
  by_cases ht : t.providerConf.status = .active
  · obtain ⟨hhandled, hres⟩ := (getProvider_eq_ok _ ht).mp hrun
    cases hres
    have hany := (pairs_rearranged h).any_eq (f := fun p => (produced retrieve t p).isNone)
    have hhandled' : ∀ c ∈ connections t', ∀ e, retrieve c = .error e → Handled e :=
      fun c hc => hhandled c ((connections_rearranged h).mem_iff.mpr hc)
    have hrun' : (getProvider retrieve t' parallel').run {} = .ok _ :=
      (getProvider_eq_ok retrieve (hstatus.trans ht)).mpr ⟨hhandled', rfl⟩
    rw [hproduced, ← hany] at hrun'
    refine ⟨_, _, hrun', (pairs_rearranged h).filterMap _, ?_⟩
    exact ((pairs_rearranged h).map _).append ((connections_rearranged h).map _)
  · rw [getProvider_inactive _ ht] at hrun
    cases hrun
    exact ⟨_, _, getProvider_inactive _ (hstatus ▸ ht) parallel', .refl _, .refl _⟩

end

/-! ## The provider -/

/-- What is merged in another order has the same content. -/
theorem mergeComponents_perm {siblings siblings' : List Sibling} {c c' : Components}
    (hg : ∀ s ∈ siblings, ∃ g, s.1.userGroups = [g]) (hperm : siblings.Perm siblings')
    (h : mergeComponents siblings = .ok c) (h' : mergeComponents siblings' = .ok c') :
    (∀ entry, c'.Has entry ↔ c.Has entry) ∧ ∀ n k e, c'.quotasAt n k e = c.quotasAt n k e := by
  constructor
  · intro entry
    rw [mergeComponents_has hg h, mergeComponents_has (fun s hs => hg s (hperm.mem_iff.mpr hs)) h']
    exact exists_congr fun s => and_congr_left fun _ => hperm.symm.mem_iff
  · intro n k e
    rw [mergeComponents_quotas h, mergeComponents_quotas h']
    exact (hperm.symm.map _).sum_eq

/-- With its regions and projects in another order, in parallel or not, a run
returns as well, having tried the same, and what is merged of it has the same
content; it is what `create_provider` returns unless the validators reject it. -/
theorem createProvider_rearranged {w : World} (hw : Faithful w.connectOpenstack) {t t' : ProviderThread}
    (h : Rearranged t t') {validate : ProviderCreateExtended → Except Py.PyError Unit} {parallel : Bool}
    {conf : Provider} {data : List ConnectionData} {error : Bool} {s : Log Attempt}
    {p : ProviderCreateExtended}
    (hrun : (getProvider (getProviderData w) t parallel).run {} = .ok ((conf, data, error), s))
    (hp : createProvider validate conf data error = .ok p) (parallel' : Bool) :
    ∃ data' s' p', (getProvider (getProviderData w) t' parallel').run {} =
        .ok ((t'.providerConf, data', error), s') ∧
      createProvider validate t'.providerConf data' error = (validate p').map (fun _ => p') ∧
        SameContent p p' ∧ s.attempts.Perm s'.attempts := by
  obtain ⟨data', s', hrun', hperm, hattempts⟩ := getProvider_rearranged h hrun parallel'
  obtain ⟨siblings', c', hsiblings', hc', -⟩ :=
    mergeComponents_selfContained (selfContained_returned hw hrun')
  refine ⟨data', s', _, hrun', createProvider_merged hsiblings' hc', ?_, hattempts⟩
  obtain ⟨siblings, c, hsiblings, hc, -, rfl⟩ := createProvider_eq_ok.mp hp
  obtain ⟨r, hr, hsiblingsPerm⟩ := mapM_perm hperm hsiblings
  rw [hsiblings'] at hr
  cases hr
  have hg : ∀ s ∈ siblings, ∃ g, s.1.userGroups = [g] := by
    intro s hs
    obtain ⟨d, -, hd⟩ := (mapM_mem_ok hsiblings s).mp hs
    exact group_retrieveComponents hd
  obtain ⟨hentries, hquotas⟩ := mergeComponents_perm hg hsiblingsPerm hc hc'
  have hconf : conf = t.providerConf := getProvider_conf _ hrun
  rw [hconf, h.conf]
  exact ⟨rfl, rfl, rfl, rfl, rfl, hentries, hquotas⟩

/-- The other project first. -/
def atlasFirst : ProviderThread :=
  { twoProjects with
    providerConf := { twoProjects.providerConf with
      projects := twoProjects.providerConf.projects.reverse } }

theorem createProvider_rearranged_sample : ∃ data error s p data' s' p',
    (getProvider (getProviderData imagesWorld) twoProjects).run {} =
      .ok ((twoProjects.providerConf, data, error), s) ∧
    createProvider (fun _ => .ok ()) twoProjects.providerConf data error = .ok p ∧
    (getProvider (getProviderData imagesWorld) atlasFirst false).run {} =
      .ok ((atlasFirst.providerConf, data', error), s') ∧
    createProvider (fun _ => .ok ()) atlasFirst.providerConf data' error = .ok p' ∧ SameContent p p' := by
  have hrun : ∃ data error s p, (getProvider (getProviderData imagesWorld) twoProjects).run {} =
      .ok ((twoProjects.providerConf, data, error), s) ∧
      createProvider (fun _ => .ok ()) twoProjects.providerConf data error = .ok p := ⟨_, _, _, _, rfl, rfl⟩
  obtain ⟨data, error, s, p, hrun, hp⟩ := hrun
  have hw : Faithful imagesWorld.connectOpenstack := faithful_imageClouds (List.nodup_singleton _)
  have h : Rearranged twoProjects atlasFirst := ⟨rfl, rfl, .refl _, .swap _ _ _⟩
  obtain ⟨data', s', p', hrun', hp', hsame, -⟩ := createProvider_rearranged hw h hrun hp false
  exact ⟨data, error, s, p, data', s', p', hrun, hp, hrun', hp', hsame⟩

end FRF.Proof
