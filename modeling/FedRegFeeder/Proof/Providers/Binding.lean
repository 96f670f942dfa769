import FedRegFeeder.Proof.Providers.Errors

/-!
# What a connection is bound to

The connection prepared for a region and a project uses one issuer, one user
group and one SLA of it, the authentication method of that issuer, and the
project as it is configured for the region (`getConnectionThread_binds`). On
such arguments the assertions of `ConnectionThread.__init__` hold.
-/

namespace FRF.Spec

open FRF.Impl

/-- `p` is the project as it is configured for a region: what its first entry
for the region sets is taken from there. -/
structure ConfiguredFor (project : Project) (region : String) (p : Project) : Prop where
  id : p.id = project.id
  sla : p.sla = project.sla
  description : p.description = project.description
  perRegionProps : p.perRegionProps = []
  overridden : ∀ props, project.perRegionProps.find? (·.regionName = region) = some props →
    p.defaultPrivateNet = props.defaultPrivateNet ∧ p.defaultPublicNet = props.defaultPublicNet ∧
      p.privateNetProxy = props.privateNetProxy ∧ p.perUserLimits = props.perUserLimits
  unchanged : project.perRegionProps.find? (·.regionName = region) = none →
    p.defaultPrivateNet = project.defaultPrivateNet ∧ p.defaultPublicNet = project.defaultPublicNet ∧
      p.privateNetProxy = project.privateNetProxy ∧ p.perUserLimits = project.perUserLimits

/-- The connection uses an SLA of the project, which belongs to a user group of
an issuer of the thread, and the authentication method of that issuer. -/
def Bound (t : ProviderThread) (region : Region) (project : Project) (c : ConnectionThread) : Prop :=
  ∃ i ∈ t.issuers, ∃ g ∈ i.userGroups, ∃ s ∈ g.slas, s.docUuid = project.sla ∧
    ∃ a ∈ t.providerConf.identityProviders, a.endpoint = i.endpoint ∧
      c.issuer = { i with userGroups := [{ g with slas := [s] }] } ∧
      ∃ p, ConfiguredFor project region.name p ∧ c.providerConf = { t.providerConf with
        identityProviders := [a], regions := [region], projects := [p] }

end FRF.Spec

namespace FRF.Proof

open FRF.Impl FRF.Impl.ProviderThread FRF.Spec
open Py (PyError)
open Framework

theorem configuredFor_prepareProjectConf (project : Project) (region : String) :
    ConfiguredFor project region (prepareProjectConf project region) := by
  cases h : project.perRegionProps.find? (·.regionName = region) with
  | none =>
    have hp : prepareProjectConf project region = { project with perRegionProps := [] } := by
      simp only [prepareProjectConf, h]
    rw [hp]
    refine ⟨rfl, rfl, rfl, rfl, fun props hprops => ?_, fun _ => ⟨rfl, rfl, rfl, rfl⟩⟩
    rw [h] at hprops
    cases hprops
  | some props =>
    have hp : prepareProjectConf project region = { project with
        perRegionProps := [], defaultPrivateNet := props.defaultPrivateNet
        defaultPublicNet := props.defaultPublicNet, privateNetProxy := props.privateNetProxy
        perUserLimits := props.perUserLimits } := by
      simp only [prepareProjectConf, h]
    rw [hp]
    refine ⟨rfl, rfl, rfl, rfl, fun props' hprops => ?_, fun hnone => ?_⟩
    · rw [h] at hprops
      cases hprops
      exact ⟨rfl, rfl, rfl, rfl⟩
    · rw [h] at hnone
      cases hnone

theorem bound_connect {t : ProviderThread} {r : Region} {p : Project} {c : ConnectionThread}
    (h : connect t r p = .ok c) : Bound t r p c := by
  obtain ⟨issuer, a, hi, ha, rfl⟩ := connect_eq_ok.mp h
  obtain ⟨i, hmem, g, hg, s, hs, hsla, rfl⟩ := getIssuerMatchingProject_eq_ok hi
  obtain ⟨hmeth, hend⟩ := getAuthMethodMatchingIssuer_eq_ok ha
  exact ⟨i, hmem, g, hg, s, hs, hsla, a, hmeth, hend, rfl, _,
    configuredFor_prepareProjectConf p r.name, rfl⟩

/-- A connection that `get_connection_thread` returns is bound to an issuer, a
user group, an SLA and an authentication method that belong together, and to
the region and the project; and on the arguments it prepares, the assertions
of the constructor hold. -/
theorem getConnectionThread_binds (t : ProviderThread) (r : Region) (p : Project) :
    (∀ c s s', (getConnectionThread t r p).run s = .ok (some c, s') → Bound t r p c) ∧
    ∀ issuer a, getIssuerMatchingProject t.issuers (prepareProjectConf p r.name).sla = .ok issuer →
      getAuthMethodMatchingIssuer t.providerConf issuer.endpoint = .ok a →
        ∃ c, ConnectionThread.init { t.providerConf with
          regions := [r], projects := [prepareProjectConf p r.name], identityProviders := [a] }
            issuer = .ok c := by
  constructor
  · intro c s s' h
    rw [StateT.run, getConnectionThread_eq, attempt_run] at h
    cases hc : connect t r p with
    | error e =>
      rw [hc] at h
      cases h
    | ok c' =>
      rw [hc] at h
      cases h
      exact bound_connect hc
  · intro issuer a hi ha
    obtain ⟨i, -, g, -, s, -, -, rfl⟩ := getIssuerMatchingProject_eq_ok hi
    refine ⟨_, init_eq_ok.mpr ⟨⟨r, rfl⟩, ⟨_, rfl⟩, ⟨a, rfl, ?_⟩, ⟨_, rfl, s, rfl⟩, rfl⟩⟩
    exact (getAuthMethodMatchingIssuer_eq_ok ha).2.symm

/-- The second project of the sample belongs to the second SLA of the second user
group of the second issuer. -/
theorem getConnectionThread_binds_sample : ∃ r p c s', (r, p) ∈ pairs twoProjects.providerConf ∧
    (getConnectionThread twoProjects r p).run {} = .ok (some c, s') ∧
    (c.issuer.endpoint, c.issuer.userGroups.map fun g => (g.name, g.slas.map (·.docUuid))) =
      ("https://iam.recas.ba.infn.it", [("atlas-users", ["atlas-sla"])]) ∧
    Bound twoProjects r p c := by
  have hrun : ∃ r p c s', (r, p) ∈ pairs twoProjects.providerConf ∧
      (getConnectionThread twoProjects r p).run {} = .ok (some c, s') ∧
      (c.issuer.endpoint, c.issuer.userGroups.map fun g => (g.name, g.slas.map (·.docUuid))) =
        ("https://iam.recas.ba.infn.it", [("atlas-users", ["atlas-sla"])]) :=
    ⟨_, _, _, _, List.mem_cons_of_mem _ List.mem_cons_self, rfl, rfl⟩
  obtain ⟨r, p, c, s', hmem, hrun, hissuer⟩ := hrun
  exact ⟨r, p, c, s', hmem, hrun, hissuer, (getConnectionThread_binds twoProjects r p).1 c {} s' hrun⟩

end FRF.Proof
