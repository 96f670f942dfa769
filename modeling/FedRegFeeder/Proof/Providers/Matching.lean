import FedRegFeeder.Framework.UpToOrder
import FedRegFeeder.Proof.Providers.Errors

/-!
# Which projects are connected to

`get_connection_thread` looks for the first issuer that lists the SLA of the
project, and only then whether the provider trusts this issuer
(`connect_iff`). So it finds a trusted issuer that lists the SLA whenever there
is one, in whatever order the issuers are listed, if and only if the provider
trusts all issuers that list it or none (`getConnectionThread_complete`).
-/

namespace FRF.Spec

open FRF.Impl FRF.Impl.ProviderThread
open Framework (UpToOrder)

/-- A user group of the issuer has the SLA. -/
def ListsSla (sla : String) (i : Issuer) : Prop := ∃ g ∈ i.userGroups, ∃ s ∈ g.slas, s.docUuid = sla

/-- The endpoint of the issuer is one of the provider's identity providers. -/
def Trusts (providerConf : Provider) (i : Issuer) : Prop :=
  ∃ a ∈ providerConf.identityProviders, a.endpoint = i.endpoint

/-- Some issuer lists the SLA of the project and is trusted. -/
def Matched (t : ProviderThread) (p : Project) : Prop :=
  ∃ i ∈ t.issuers, ListsSla p.sla i ∧ Trusts t.providerConf i

/-- A connection is returned. -/
def Connects (t : ProviderThread) (r : Region) (p : Project) : Prop :=
  ∀ s, ∃ c s', (getConnectionThread t r p).run s = .ok (some c, s')

/-- The project is skipped, with an error. -/
def Skips (t : ProviderThread) (r : Region) (p : Project) : Prop :=
  ∀ s, ∃ s', (getConnectionThread t r p).run s = .ok (none, s') ∧ s'.error = true

/-- The same user group, with its SLAs in any order. -/
def SameGroup (g g' : UserGroup) : Prop :=
  g'.name = g.name ∧ g'.description = g.description ∧ g.slas.Perm g'.slas

/-- The same issuer, with its user groups and their SLAs in any order. -/
structure SameIssuer (i i' : Issuer) : Prop where
  endpoint : i'.endpoint = i.endpoint
  groupClaim : i'.groupClaim = i.groupClaim
  description : i'.description = i.description
  token : i'.token = i.token
  userGroups : UpToOrder SameGroup i.userGroups i'.userGroups

/-- The same provider, with its issuers in any order. -/
def SameThread (t t' : ProviderThread) : Prop :=
  t'.providerConf = t.providerConf ∧ UpToOrder SameIssuer t.issuers t'.issuers

/-- In every order a connection is returned if and only if some issuer matches,
and otherwise the project is skipped. -/
def Complete (t : ProviderThread) (r : Region) (p : Project) : Prop :=
  ∀ t', SameThread t t' → (Connects t' r p ↔ Matched t p) ∧ (Skips t' r p ↔ ¬ Matched t p)

end FRF.Spec

namespace FRF.Proof

open FRF.Impl FRF.Impl.ProviderThread FRF.Spec
open Py (PyError)
open Framework

/-! ## The first issuer that lists an SLA -/

/-- What the search returns when it stops at this issuer. -/
def candidateOf (sla : String) (i : Issuer) : Option Issuer :=
  (i.userGroups.flatMap fun g => (g.slas.filter (·.docUuid = sla)).map (issuerFor i g)).head?

theorem candidateOf_eq_none {sla : String} {i : Issuer} :
    candidateOf sla i = none ↔ ¬ ListsSla sla i := by
  simp [candidateOf, ListsSla, List.flatMap_eq_nil_iff, List.filter_eq_nil_iff]

theorem candidateOf_eq_some {sla : String} {i m : Issuer} (h : candidateOf sla i = some m) :
    ListsSla sla i ∧ m.endpoint = i.endpoint := by
  refine ⟨?_, ?_⟩
  · by_contra hno
    rw [candidateOf_eq_none.mpr hno] at h
    cases h
  · have hmem := List.mem_of_head? h
    simp only [List.mem_flatMap, List.mem_map] at hmem
    obtain ⟨g, -, s, -, rfl⟩ := hmem
    rfl

theorem getIssuerMatchingProject_eq_ok_iff {issuers : List Issuer} {sla : String} {m : Issuer} :
    getIssuerMatchingProject issuers sla = .ok m ↔
      issuers.findSome? (candidateOf sla) = some m := by
  have hhead : issuers.findSome? (candidateOf sla) = (issuers.flatMap fun issuer =>
      issuer.userGroups.flatMap fun userGroup =>
        (userGroup.slas.filter (·.docUuid = sla)).map (issuerFor issuer userGroup)).head? :=
    List.head?_flatMap.symm
  rw [hhead]
  simp only [getIssuerMatchingProject]
  split
  · rename_i hl
    rw [hl, List.head?_cons, Except.ok.injEq, Option.some.injEq]
  · rename_i hl
    rw [hl]
    exact ⟨(fun h => by cases h), (fun h => by cases h)⟩

/-- The issuer is the first one that lists the SLA. -/
def FirstLists (issuers : List Issuer) (sla : String) (i : Issuer) : Prop :=
  ListsSla sla i ∧ ∃ before after, issuers = before ++ i :: after ∧ ∀ j ∈ before, ¬ ListsSla sla j

theorem exists_issuer_iff {issuers : List Issuer} {sla endpoint : String} :
    (∃ m, getIssuerMatchingProject issuers sla = .ok m ∧ m.endpoint = endpoint) ↔
      ∃ i, FirstLists issuers sla i ∧ i.endpoint = endpoint := by
  simp only [getIssuerMatchingProject_eq_ok_iff, List.findSome?_eq_some_iff, candidateOf_eq_none]
  constructor
  · rintro ⟨m, ⟨before, i, after, hsplit, hm, hbefore⟩, hend⟩
    obtain ⟨hlists, hmi⟩ := candidateOf_eq_some hm
    exact ⟨i, ⟨hlists, before, after, hsplit, hbefore⟩, hmi ▸ hend⟩
  · rintro ⟨i, ⟨hlists, before, after, hsplit, hbefore⟩, hend⟩
    cases hm : candidateOf sla i with
    | none => exact absurd hlists (candidateOf_eq_none.mp hm)
    | some m =>
      exact ⟨m, ⟨before, i, after, hsplit, hm, hbefore⟩, (candidateOf_eq_some hm).2.trans hend⟩

/-! ## One order -/

theorem exists_authMethod_iff {providerConf : Provider} {endpoint : String} :
    (∃ a, getAuthMethodMatchingIssuer providerConf endpoint = .ok a) ↔
      ∃ a ∈ providerConf.identityProviders, a.endpoint = endpoint := by
  constructor
  · rintro ⟨a, h⟩
    exact ⟨a, getAuthMethodMatchingIssuer_eq_ok h⟩
  · rintro ⟨a, ha, hend⟩
    have hsome : (providerConf.identityProviders.find? (·.endpoint = endpoint)).isSome = true :=
      List.find?_isSome.mpr ⟨a, ha, decide_eq_true hend⟩
    obtain ⟨a', ha'⟩ := Option.isSome_iff_exists.mp hsome
    exact ⟨a', by simp only [getAuthMethodMatchingIssuer, ha']⟩

/-- A connection is prepared when the first issuer that lists the SLA is
trusted. -/
theorem connect_iff {t : ProviderThread} {r : Region} {p : Project} :
    (∃ c, connect t r p = .ok c) ↔ ∃ i, FirstLists t.issuers p.sla i ∧ Trusts t.providerConf i := by
  simp only [connect_eq_ok]
  constructor
  · rintro ⟨c, m, a, hm, ha, -⟩
    obtain ⟨i, hi, hend⟩ := exists_issuer_iff.mp ⟨m, hm, rfl⟩
    rw [← hend] at ha
    exact ⟨i, hi, exists_authMethod_iff.mp ⟨a, ha⟩⟩
  · rintro ⟨i, hi, htrusts⟩
    obtain ⟨m, hm, hend⟩ := exists_issuer_iff.mpr ⟨i, hi, rfl⟩
    obtain ⟨a, ha⟩ := exists_authMethod_iff.mpr htrusts
    rw [← hend] at ha
    exact ⟨_, m, a, hm, ha, rfl⟩

theorem connects_iff {t : ProviderThread} {r : Region} {p : Project} :
    Connects t r p ↔ ∃ i, FirstLists t.issuers p.sla i ∧ Trusts t.providerConf i := by
  rw [← connect_iff]
  simp only [Connects, StateT.run, getConnectionThread_eq, attempt_run, Except.map]
  cases connect t r p with
  | ok c => exact iff_of_true (fun s => ⟨c, _, rfl⟩) ⟨c, rfl⟩
  | error e =>
    refine iff_of_false (fun h => ?_) (fun ⟨_, h⟩ => by cases h)
    obtain ⟨c, s', h⟩ := h {}
    cases h

theorem skips_iff {t : ProviderThread} {r : Region} {p : Project} :
    Skips t r p ↔ ¬ ∃ i, FirstLists t.issuers p.sla i ∧ Trusts t.providerConf i := by
  rw [← connect_iff]
  simp only [Skips, StateT.run, getConnectionThread_eq, attempt_run, Except.map]
  cases connect t r p with
  | ok c =>
    refine iff_of_false (fun h => ?_) (not_not_intro ⟨c, rfl⟩)
    obtain ⟨s', h, -⟩ := h {}
    cases h
  | error e =>
    exact iff_of_true (fun s => ⟨_, rfl, Bool.or_true _⟩) (fun ⟨_, h⟩ => by cases h)

/-! ## Every order -/

theorem sameGroup_refl (g : UserGroup) : SameGroup g g := ⟨rfl, rfl, .refl _⟩

theorem sameIssuer_refl (i : Issuer) : SameIssuer i i :=
  ⟨rfl, rfl, rfl, rfl, UpToOrder.refl sameGroup_refl _⟩

theorem listsSla_congr {i i' : Issuer} (h : SameIssuer i i') (sla : String) :
    ListsSla sla i ↔ ListsSla sla i' :=
  h.userGroups.exists_iff fun _ _ hg => exists_congr fun _ => and_congr_left fun _ => hg.2.2.mem_iff

theorem trusts_congr {i i' : Issuer} (h : SameIssuer i i') (providerConf : Provider) :
    Trusts providerConf i ↔ Trusts providerConf i' := by
  rw [Trusts, Trusts, h.endpoint]

/-- What all issuers that list the SLA satisfy does not depend on the order. -/
theorem forall_listing_congr {t t' : ProviderThread} (h : SameThread t t') (sla : String)
    {q : Issuer → Prop} (hq : ∀ i i', SameIssuer i i' → (q i ↔ q i')) :
    (∀ i ∈ t.issuers, ListsSla sla i → q i) ↔ ∀ i ∈ t'.issuers, ListsSla sla i → q i :=
  h.2.forall_iff fun i i' hi => imp_congr (listsSla_congr hi sla) (hq i i' hi)

theorem matched_congr {t t' : ProviderThread} (h : SameThread t t') (p : Project) :
    Matched t p ↔ Matched t' p := by
  rw [Matched, Matched, h.1]
  exact h.2.exists_iff fun i i' hi => and_congr (listsSla_congr hi p.sla) (trusts_congr hi _)

theorem mem_of_firstLists {issuers : List Issuer} {sla : String} {i : Issuer}
    (h : FirstLists issuers sla i) : i ∈ issuers := by
  obtain ⟨-, before, after, rfl, -⟩ := h
  exact List.mem_append_right _ List.mem_cons_self

theorem exists_firstLists {issuers : List Issuer} {sla : String} {i : Issuer} (hi : i ∈ issuers)
    (h : ListsSla sla i) : ∃ j, FirstLists issuers sla j := by
  classical
  have hsome : (issuers.find? fun j => decide (ListsSla sla j)).isSome = true :=
    List.find?_isSome.mpr ⟨i, hi, decide_eq_true h⟩
  obtain ⟨j, hj⟩ := Option.isSome_iff_exists.mp hsome
  obtain ⟨hlists, before, after, hsplit, hbefore⟩ := List.find?_eq_some_iff_append.mp hj
  exact ⟨j, of_decide_eq_true hlists, before, after, hsplit, fun k hk => by simpa using hbefore k hk⟩

/-- In a list that starts with an issuer that lists the SLA, it is the first one. -/
theorem firstLists_cons {i j : Issuer} {issuers : List Issuer} {sla : String}
    (hi : ListsSla sla i) (h : FirstLists (i :: issuers) sla j) : j = i := by
  obtain ⟨-, before, after, hsplit, hbefore⟩ := h
  cases before with
  | nil => exact (List.cons.inj hsplit).1.symm
  | cons k before =>
    rw [← (List.cons.inj hsplit).1] at hbefore
    exact absurd hi (hbefore i List.mem_cons_self)

/-- If all issuers that list the SLA are trusted, or none is, the first one tells. -/
theorem firstTrusted_iff {issuers : List Issuer} {sla : String} {providerConf : Provider}
    (hcond : (∀ i ∈ issuers, ListsSla sla i → Trusts providerConf i) ∨
      ∀ i ∈ issuers, ListsSla sla i → ¬ Trusts providerConf i) :
    (∃ i, FirstLists issuers sla i ∧ Trusts providerConf i) ↔
      ∃ i ∈ issuers, ListsSla sla i ∧ Trusts providerConf i := by
  constructor
  · rintro ⟨i, hi, htrusts⟩
    exact ⟨i, mem_of_firstLists hi, hi.1, htrusts⟩
  · rintro ⟨i, hi, hlists, htrusts⟩
    obtain ⟨j, hj⟩ := exists_firstLists hi hlists
    rcases hcond with hall | hnone
    · exact ⟨j, hj, hall j (mem_of_firstLists hj) hj.1⟩
    · exact absurd htrusts (hnone i hi hlists)

/-- In every order of the issuers, their user groups and the SLAs of these a
connection is returned if and only if a trusted issuer lists the SLA of the
project, and otherwise the project is skipped with an error, exactly when the
issuers that list the SLA are all trusted, or none of them is. -/
theorem getConnectionThread_complete (t : ProviderThread) (r : Region) (p : Project) :
    Complete t r p ↔ (∀ i ∈ t.issuers, ListsSla p.sla i → Trusts t.providerConf i) ∨
      ∀ i ∈ t.issuers, ListsSla p.sla i → ¬ Trusts t.providerConf i := by
  simp only [Complete, connects_iff, skips_iff]
  constructor
  · intro hcomplete
    by_contra hno
    push Not at hno
    obtain ⟨⟨i, hi, hlists, huntrusted⟩, j, hj, hjlists, htrusts⟩ := hno
    -- the untrusted issuer comes first in some order
    have hsame : SameThread t { t with issuers := i :: t.issuers.erase i } :=
      ⟨rfl, UpToOrder.of_perm sameIssuer_refl (List.perm_cons_erase hi)⟩
    obtain ⟨k, hk, hktrusts⟩ := (hcomplete _ hsame).1.mpr ⟨j, hj, hjlists, htrusts⟩
    rw [firstLists_cons hlists hk] at hktrusts
    exact huntrusted hktrusts
  · intro hcond t' hsame
    have hall := forall_listing_congr hsame p.sla fun _ _ hi => trusts_congr hi t'.providerConf
    have hnone := forall_listing_congr hsame p.sla fun _ _ hi =>
      not_congr (trusts_congr hi t'.providerConf)
    rw [← hsame.1] at hcond
    have hiff := (firstTrusted_iff (hcond.imp hall.mp hnone.mp)).trans (matched_congr hsame p).symm
    exact ⟨hiff, not_congr hiff⟩

/-- An issuer with the user group of `sampleIssuer` that the provider does not
trust. -/
private def untrustedIssuer : Issuer :=
  { sampleIssuer with endpoint := "https://iam.recas.ba.infn.it" }

/-- Two issuers with the same user group, of which the second is trusted. -/
private def untrustedFirst : ProviderThread :=
  { providerConf := sampleConf, issuers := [untrustedIssuer, sampleIssuer] }

/-- A valid configuration in which a trusted issuer lists the SLA of the
project, and the project is skipped because another issuer comes first. -/
theorem trusted_issuer_missed :
    untrustedFirst.issuers.forM Issuer.validate = .ok () ∧
    SiteConfig.validateIssuers untrustedFirst.issuers = .ok () ∧
    untrustedFirst.providerConf.validate = .ok () ∧
    ∃ r ∈ untrustedFirst.providerConf.regions, ∃ p ∈ untrustedFirst.providerConf.projects,
      Matched untrustedFirst p ∧ Skips untrustedFirst r p ∧ ¬ Connects untrustedFirst r p := by
  refine ⟨rfl, rfl, rfl, _, List.mem_singleton_self _, _, List.mem_singleton_self _, ?_, ?_, ?_⟩
  · exact ⟨sampleIssuer, List.mem_cons_of_mem _ List.mem_cons_self,
      ⟨_, List.mem_cons_self, _, List.mem_cons_self, rfl⟩, _, List.mem_cons_self, rfl⟩
  · exact fun s => ⟨_, rfl, rfl⟩
  · intro h
    obtain ⟨c, s', h⟩ := h {}
    cases h

end FRF.Proof
