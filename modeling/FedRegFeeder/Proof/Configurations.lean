import FedRegFeeder.Framework.Counts
import FedRegFeeder.Impl.Models.Provider

/-!
# Which configurations of a provider are accepted

A configuration is built if and only if none of the attributes that its
validators compare occurs twice (`providerInit_eq_ok`). The name of an authentication
method is one of them, and it may be missing: two methods without a name are
taken for duplicates (`init_accepts`).
-/

namespace FRF.Spec

open FRF.Impl

/-- In what is given for a configuration nothing that identifies an element is
there twice. -/
structure Distinct (given : Provider) : Prop where
  endpoints : (given.identityProviders.map (·.endpoint)).Nodup
  names : (given.identityProviders.filterMap (·.idpName)).Nodup
  regions : (given.regions.map (·.name)).Nodup
  ids : (given.projects.map (·.id)).Nodup
  slas : (given.projects.map (·.sla)).Nodup

/-- A configuration with the given lists; if no region is given, with the default
one. -/
structure BuiltFrom (newRegion : String → Region) (given p : Provider) : Prop where
  identityProviders : p.identityProviders = given.identityProviders
  projects : p.projects = given.projects
  regions : p.regions = if given.regions = [] then [newRegion given.kind.defaultRegionName]
    else given.regions

/-- What is given is accepted if and only if it is distinct, and is then what the
configuration consists of. -/
def Accepts (newRegion : String → Region) (given : Provider) : Prop :=
  ((∃ p, Provider.init newRegion given = .ok p) ↔ Distinct given) ∧
    ∀ p, Provider.init newRegion given = .ok p → BuiltFrom newRegion given p

/-- How many authentication methods have no name. -/
def unnamed (given : Provider) : Nat := given.identityProviders.countP (·.idpName.isNone)

end FRF.Spec

namespace FRF.Proof

open FRF.Impl FRF.Spec
open Py (PyError)
open Framework

variable {newRegion : String → Region}

theorem defaultRegion_eq (kind : ProviderKind) (regions : List Region) :
    Provider.defaultRegion newRegion kind regions =
      if regions = [] then [newRegion kind.defaultRegionName] else regions := by
  rw [Provider.defaultRegion]
  cases regions <;> rfl

theorem findIdpDuplicates_eq_ok {v : List AuthMethod} {u : Unit} :
    Provider.findIdpDuplicates v = .ok u ↔
      (v.map (·.endpoint)).Nodup ∧ (v.map (·.idpName)).Nodup := by
  simp only [Provider.findIdpDuplicates, bind_eq_ok, findDuplicates_eq_ok, exists_const]

theorem findProjDuplicates_eq_ok {v : List Project} {u : Unit} :
    Provider.findProjDuplicates v = .ok u ↔ (v.map (·.id)).Nodup ∧ (v.map (·.sla)).Nodup := by
  simp only [Provider.findProjDuplicates, bind_eq_ok, findDuplicates_eq_ok, exists_const]

theorem findRegDuplicates_eq_ok {v : List Region} {u : Unit} :
    Provider.findRegDuplicates v = .ok u ↔ (v.map (·.name)).Nodup := findDuplicates_eq_ok

theorem providerInit_eq_ok {given p : Provider} : Provider.init newRegion given = .ok p ↔
    (Distinct given ∧ unnamed given ≤ 1) ∧
      p = { given with regions := Provider.defaultRegion newRegion given.kind given.regions } := by
  simp only [Provider.init, bind_eq_ok, pure_eq_ok, findIdpDuplicates_eq_ok,
    findRegDuplicates_eq_ok, findProjDuplicates_eq_ok, exists_const]
  rw [nodup_map_iff (f := AuthMethod.idpName), ← unnamed]
  constructor
  · rintro ⟨⟨hendpoints, hnames, hone⟩, hregions, ⟨hids, hslas⟩, rfl⟩
    exact ⟨⟨⟨hendpoints, hnames, hregions, hids, hslas⟩, hone⟩, rfl⟩
  · rintro ⟨⟨⟨hendpoints, hnames, hregions, hids, hslas⟩, hone⟩, rfl⟩
    exact ⟨⟨hendpoints, hnames, hone⟩, hregions, ⟨hids, hslas⟩, rfl⟩

theorem nodup_defaultRegion {kind : ProviderKind} {regions : List Region}
    (h : (regions.map (·.name)).Nodup) :
    ((Provider.defaultRegion newRegion kind regions).map (·.name)).Nodup := by
  rw [defaultRegion_eq]
  split
  · exact List.nodup_singleton _
  · exact h

/-- What is built passes its own validators. -/
theorem validate_init {given p : Provider} (h : Provider.init newRegion given = .ok p) :
    p.validate = .ok () := by
  obtain ⟨⟨hd, hone⟩, rfl⟩ := providerInit_eq_ok.mp h
  simp only [Provider.validate, bind_eq_ok, findIdpDuplicates_eq_ok, findRegDuplicates_eq_ok,
    findProjDuplicates_eq_ok, exists_const]
  exact ⟨⟨hd.endpoints, nodup_map_iff.mpr ⟨hd.names, hone⟩⟩, nodup_defaultRegion hd.regions,
    hd.ids, hd.slas⟩

/-- A configuration is accepted if and only if it is distinct, and then consists
of what is given, exactly when at most one authentication method has no name,
or something else is there twice. -/
theorem init_accepts (newRegion : String → Region) (given : Provider) :
    Accepts newRegion given ↔ unnamed given ≤ 1 ∨ ¬ Distinct given := by
  have hbuilt : ∀ p, Provider.init newRegion given = .ok p → BuiltFrom newRegion given p := by
    intro p h
    obtain ⟨-, rfl⟩ := providerInit_eq_ok.mp h
    exact ⟨rfl, rfl, defaultRegion_eq _ _⟩
  have hex : (∃ p, Provider.init newRegion given = .ok p) ↔ Distinct given ∧ unnamed given ≤ 1 := by
    simp only [providerInit_eq_ok, exists_and_left, exists_eq, and_true]
  rw [Accepts, and_iff_left hbuilt, hex]
  constructor
  · intro hiff
    by_cases hd : Distinct given
    · exact .inl (hiff.mpr hd).2
    · exact .inr hd
  · rintro (hone | hno)
    · exact and_iff_left hone
    · exact iff_of_false (fun h => hno h.1) hno

/-- A cluster that trusts two issuers, neither of which has a name. -/
private def unnamedMethods : Provider where
  name := "kubernetes"
  kind := .kubernetes none
  authUrl := "https://k8s.cloud.infn.it"
  identityProviders :=
    [{ endpoint := "https://iam.cloud.infn.it", audience := some "k8s" },
     { endpoint := "https://iam.recas.ba.infn.it", audience := some "k8s" }]
  regions := []
  projects := [{ id := "namespace", sla := "sla" }]

/-- A region of which only the name is given. -/
private def namedRegion (name : String) : Region :=
  { name, overbookingCpu := 1, overbookingRam := 1, bandwidthIn := 10, bandwidthOut := 10 }

/-- Two authentication methods with distinct endpoints and without names are
rejected. -/
theorem unnamed_rejected :
    Distinct unnamedMethods ∧ ¬ ∃ p, Provider.init namedRegion unnamedMethods = .ok p :=
  ⟨⟨by decide, by decide, by decide, by decide, by decide⟩, fun ⟨_, h⟩ => by cases h⟩

end FRF.Proof
