import FedRegFeeder.Impl.Providers.Core

/-!
# What `get_provider` returns

For an active provider `get_provider` tries every pair of a region and a
project once, and returns, when no retrieval raises an exception it does not
handle, the data of the pairs that produced some (`getProvider_eq_ok`):

* `connect_eq_ok`: the connection prepared for a pair;
* `produced`: the data a pair produces;
* `getProvider_active`: what a run computes, whether in parallel or not.
-/

namespace FRF.Proof

open FRF.Impl FRF.Impl.ProviderThread
open Py (PyError)
open Framework

/-! ## Connections -/

theorem assertThat_eq_ok {c : Bool} {msg : String} {u : Unit} :
    assertThat c msg = .ok u ↔ c = true := by
  cases c
  · exact ⟨(nomatch ·), (nomatch ·)⟩
  · exact ⟨fun _ => rfl, fun _ => rfl⟩

/-- The lists whose lengths the constructor asserts have one element each, and
it does nothing else. -/
theorem init_eq_ok {providerConf : Provider} {issuer : Issuer} {c : ConnectionThread} :
    ConnectionThread.init providerConf issuer = .ok c ↔
      (∃ r, providerConf.regions = [r]) ∧ (∃ p, providerConf.projects = [p]) ∧
      (∃ a, providerConf.identityProviders = [a] ∧ issuer.endpoint = a.endpoint) ∧
      (∃ g, issuer.userGroups = [g] ∧ ∃ s, g.slas = [s]) ∧
      c = { providerConf, issuer } := by
  simp only [ConnectionThread.init, bind_eq_ok, pure_eq_ok, assertThat_eq_ok, Py.index0_eq_ok,
    decide_eq_true_eq, List.length_eq_one_iff]
  constructor
  · rintro ⟨_, hr, _, hp, _, ⟨a, ha⟩, a', ha', _, hend, _, ⟨g, hg⟩, g', hg', _, hs, rfl⟩
    rw [ha, List.head?_cons, Option.some.injEq] at ha'
    rw [hg, List.head?_cons, Option.some.injEq] at hg'
    exact ⟨hr, hp, ⟨a, ha, ha' ▸ hend⟩, ⟨g, hg, hg' ▸ hs⟩, rfl⟩
  · rintro ⟨hr, hp, ⟨a, ha, hend⟩, ⟨g, hg, hs⟩, rfl⟩
    exact ⟨(), hr, (), hp, (), ⟨a, ha⟩, a, by rw [ha]; rfl, (), hend, (), ⟨g, hg⟩, g,
      by rw [hg]; rfl, (), hs, rfl⟩

theorem getIssuerMatchingProject_eq_ok {issuers : List Issuer} {projectSla : String} {i : Issuer}
    (h : getIssuerMatchingProject issuers projectSla = .ok i) :
    ∃ issuer ∈ issuers, ∃ g ∈ issuer.userGroups, ∃ s ∈ g.slas, s.docUuid = projectSla ∧
      i = issuerFor issuer g s := by
  simp only [getIssuerMatchingProject] at h
  split at h
  · rename_i i' l hl
    cases h
    have hmem := hl ▸ List.mem_cons_self (a := i) (l := l)
    simp only [List.mem_flatMap, List.mem_map, List.mem_filter, decide_eq_true_eq] at hmem
    obtain ⟨issuer, hi, g, hg, s, ⟨hs, hd⟩, rfl⟩ := hmem
    exact ⟨issuer, hi, g, hg, s, hs, hd, rfl⟩
  · cases h

theorem prepareProjectConf_id (p : Project) (n : String) : (prepareProjectConf p n).id = p.id := by
  simp only [prepareProjectConf]
  split <;> rfl

theorem prepareProjectConf_sla (p : Project) (n : String) : (prepareProjectConf p n).sla = p.sla := by
  simp only [prepareProjectConf]
  split <;> rfl

theorem getAuthMethodMatchingIssuer_eq_ok {providerConf : Provider} {endpoint : String}
    {a : AuthMethod} (h : getAuthMethodMatchingIssuer providerConf endpoint = .ok a) :
    a ∈ providerConf.identityProviders ∧ a.endpoint = endpoint := by
  simp only [getAuthMethodMatchingIssuer] at h
  split at h
  · rename_i a' hfind
    cases h
    exact ⟨List.mem_of_find?_eq_some hfind, by simpa using List.find?_some hfind⟩
  · cases h

/-- The connection prepared for a pair, from its issuer and its authentication
method: the assertions of the constructor hold. -/
theorem connect_eq_ok {t : ProviderThread} {r : Region} {p : Project} {c : ConnectionThread} :
    connect t r p = .ok c ↔ ∃ issuer a, getIssuerMatchingProject t.issuers p.sla = .ok issuer ∧
      getAuthMethodMatchingIssuer t.providerConf issuer.endpoint = .ok a ∧
      c = { issuer, providerConf := { t.providerConf with
              regions := [r], projects := [prepareProjectConf p r.name]
              identityProviders := [a] } } := by
  simp only [connect, bind_eq_ok, prepareProjectConf_sla]
  refine exists_congr fun issuer => ?_
  rw [exists_and_left]
  refine and_congr_right fun hi => exists_congr fun a => and_congr_right fun ha => ?_
  obtain ⟨i, -, g, -, s, -, -, rfl⟩ := getIssuerMatchingProject_eq_ok hi
  refine init_eq_ok.trans ⟨fun h => h.2.2.2.2, fun h => ⟨⟨r, rfl⟩, ⟨_, rfl⟩, ⟨a, rfl, ?_⟩,
    ⟨_, rfl, _, rfl⟩, h⟩⟩
  exact (getAuthMethodMatchingIssuer_eq_ok ha).2.symm

/-- Preparing a connection raises only `ValueError`. -/
theorem connect_eq_error {t : ProviderThread} {r : Region} {p : Project} {e : PyError}
    (h : connect t r p = .error e) : ∃ m, e = .valueError m := by
  cases hi : getIssuerMatchingProject t.issuers p.sla with
  | error e' =>
    simp only [connect, prepareProjectConf_sla, hi] at h
    cases h
    simp only [getIssuerMatchingProject] at hi
    split at hi
    · cases hi
    · cases hi; exact ⟨_, rfl⟩
  | ok issuer =>
    cases ha : getAuthMethodMatchingIssuer t.providerConf issuer.endpoint with
    | error e' =>
      simp only [connect, prepareProjectConf_sla, hi, bind, Except.bind, ha] at h
      cases h
      simp only [getAuthMethodMatchingIssuer] at ha
      split at ha
      · cases ha
      · cases ha; exact ⟨_, rfl⟩
    | ok a =>
      rw [connect_eq_ok.mpr ⟨issuer, a, hi, ha, rfl⟩] at h
      cases h

/-! ## One attempt -/

theorem getConnectionThread_eq (t : ProviderThread) (r : Region) (p : Project) :
    getConnectionThread t r p = attempt (.prepare r p) (.ok (connect t r p).toOption) := by
  cases h : connect t r p with
  | ok c => simp only [getConnectionThread, h]; rfl
  | error e =>
    obtain ⟨m, rfl⟩ := connect_eq_error h
    simp only [getConnectionThread, h]
    rfl

/-- The exceptions of a retrieval that `retrieve_data` handles. -/
def Handled (e : PyError) : Prop :=
  e = .openstackProviderError ∨ e = .kubernetesProviderError ∨ ∃ m, e = .notImplementedError m

/-- What a retrieval gives: data, nothing, or an exception. -/
def retrieveOutcome (r : Except PyError ConnectionData) : Except PyError (Option ConnectionData) :=
  match r with
  | .ok data => .ok (some data)
  | .error .openstackProviderError | .error .kubernetesProviderError => .ok none
  | .error (.notImplementedError _) => .ok none
  | .error e => .error e

theorem retrieveOutcome_eq_ok {r : Except PyError ConnectionData} {o : Option ConnectionData} :
    retrieveOutcome r = .ok o ↔ (∀ e, r = .error e → Handled e) ∧ o = r.toOption := by
  match r with
  | .ok data => simp [retrieveOutcome, Except.toOption, eq_comm]
  | .error e => cases e <;> simp [retrieveOutcome, Handled, Except.toOption, eq_comm]

section
variable (retrieve : ConnectionThread → Except PyError ConnectionData)

theorem retrieveData_eq (c : ConnectionThread) :
    retrieveData retrieve c = attempt (.retrieve c) (retrieveOutcome (retrieve c)) := by
  simp only [retrieveData, attempt, retrieveOutcome]
  cases retrieve c with
  | ok data => rfl
  | error e => cases e <;> rfl

/-- In parallel or not, the connections are tried one by one. -/
theorem retrieveAll_eq (parallel : Bool) (connections : List ConnectionThread) :
    retrieveAll retrieve parallel connections =
      connections.mapM fun c => attempt (.retrieve c) (retrieveOutcome (retrieve c)) := by
  rw [retrieveAll, retrieveAllParallel, funext (retrieveData_eq retrieve)]
  split
  · exact collect_attempt _ (fun c => retrieveOutcome (retrieve c)) connections
  · rfl

/-! ## All attempts -/

/-- The connections that can be prepared, in the order of the pairs. -/
def connections (t : ProviderThread) : List ConnectionThread :=
  (pairs t.providerConf).filterMap fun p => (connect t p.1 p.2).toOption

/-- The data a pair produces. -/
def produced (t : ProviderThread) (p : Region × Project) : Option ConnectionData :=
  (connect t p.1 p.2).toOption.bind fun c => (retrieve c).toOption

/-- What a run has tried: every pair once, and every connection that could be
prepared once. -/
def allAttempts (t : ProviderThread) : List Attempt :=
  (pairs t.providerConf).map (fun p => .prepare p.1 p.2) ++ (connections t).map .retrieve

theorem mapM_retrieveOutcome_eq_ok :
    ∀ {l : List ConnectionThread} {r : List (Option ConnectionData)},
      l.mapM (fun c => retrieveOutcome (retrieve c)) = .ok r ↔
        (∀ c ∈ l, ∀ e, retrieve c = .error e → Handled e) ∧
          r = l.map fun c => (retrieve c).toOption
  | [], r => by
    rw [mapM_nil_ok]
    simp
  | c :: l, r => by
    rw [mapM_cons_ok]
    simp only [retrieveOutcome_eq_ok, mapM_retrieveOutcome_eq_ok, List.forall_mem_cons,
      List.map_cons]
    constructor
    · rintro ⟨_, _, ⟨hc, rfl⟩, ⟨hl, rfl⟩, rfl⟩
      exact ⟨⟨hc, hl⟩, rfl⟩
    · rintro ⟨⟨hc, hl⟩, rfl⟩
      exact ⟨_, _, ⟨hc, rfl⟩, ⟨hl, rfl⟩, rfl⟩

theorem connection_error {t : ProviderThread} {c : ConnectionThread} (h : c ∈ connections t) :
    c.error = false := by
  obtain ⟨p, -, hp⟩ := List.mem_filterMap.mp h
  cases hc : connect t p.1 p.2 with
  | error e => rw [hc] at hp; cases hp
  | ok c' =>
    rw [hc] at hp
    cases hp
    obtain ⟨_, _, -, -, rfl⟩ := connect_eq_ok.mp hc
    rfl

theorem reduceOption_connect (t : ProviderThread) :
    ((pairs t.providerConf).map fun p => (connect t p.1 p.2).toOption).reduceOption =
      connections t :=
  reduceOption_map_eq _ _

theorem mapM_getConnectionThread (t : ProviderThread) :
    ((pairs t.providerConf).mapM fun p => getConnectionThread t p.1 p.2).run {} =
      .ok ((pairs t.providerConf).map fun p => (connect t p.1 p.2).toOption,
        ⟨(pairs t.providerConf).any fun p => (connect t p.1 p.2).toOption.isNone,
          (pairs t.providerConf).map fun p => .prepare p.1 p.2⟩) := by
  have hok : (pairs t.providerConf).mapM (fun p =>
      (.ok (connect t p.1 p.2).toOption : Except PyError (Option ConnectionThread))) =
      .ok ((pairs t.providerConf).map fun p => (connect t p.1 p.2).toOption) := List.mapM_pure
  simp only [getConnectionThread_eq, StateT.run]
  rw [mapM_attempt, hok]
  simp only [Except.map, List.any_map]
  rfl

/-- What a run of an active provider computes, in parallel or not. -/
theorem getProvider_active {t : ProviderThread} (ht : t.providerConf.status = .active)
    (parallel : Bool) :
    (getProvider retrieve t parallel).run {} =
      ((connections t).mapM fun c => retrieveOutcome (retrieve c)).map fun r =>
        let error := ((pairs t.providerConf).any fun p => (connect t p.1 p.2).toOption.isNone) ||
          r.any (·.isNone)
        ((t.providerConf, r.reduceOption, error), ⟨error, allAttempts t⟩) := by
  have herr : (connections t).any (·.error) = false :=
    List.any_eq_false.mpr fun c hc => by rw [connection_error hc]; exact Bool.false_ne_true
  simp only [getProvider, ht, ne_eq, not_true_eq_false, ite_false, StateT.run_bind,
    mapM_getConnectionThread, retrieveAll_eq, ok_bind, reduceOption_connect, herr,
    Bool.false_eq_true]
  simp only [StateT.run, mapM_attempt]
  cases (connections t).mapM fun c => retrieveOutcome (retrieve c) with
  | error e => rfl
  | ok r => rfl

theorem reduceOption_produced (t : ProviderThread) :
    ((connections t).map fun c => (retrieve c).toOption).reduceOption =
      (pairs t.providerConf).filterMap (produced retrieve t) := by
  rw [reduceOption_map_eq, connections, List.filterMap_filterMap]
  rfl

theorem any_produced (t : ProviderThread) :
    (((pairs t.providerConf).any fun p => (connect t p.1 p.2).toOption.isNone) ||
      ((connections t).map fun c => (retrieve c).toOption).any (·.isNone)) =
      (pairs t.providerConf).any fun p => (produced retrieve t p).isNone := by
  rw [connections, List.any_map, List.any_filterMap, Bool.eq_iff_iff, Bool.or_eq_true,
    List.any_eq_true, List.any_eq_true, List.any_eq_true, ← exists_or]
  refine exists_congr fun p => ?_
  rw [← and_or_left]
  refine and_congr_right fun _ => ?_
  simp only [produced]
  cases connect t p.1 p.2 <;> simp [Except.toOption]

/-- A run returns exactly when every exception that a retrieval raises is
handled, and then returns the data of the pairs that produced some. -/
theorem getProvider_eq_ok {t : ProviderThread} (ht : t.providerConf.status = .active)
    {parallel : Bool} {res : (Provider × List ConnectionData × Bool) × Log Attempt} :
    (getProvider retrieve t parallel).run {} = .ok res ↔
      (∀ c ∈ connections t, ∀ e, retrieve c = .error e → Handled e) ∧
      res = ((t.providerConf, (pairs t.providerConf).filterMap (produced retrieve t),
          (pairs t.providerConf).any fun p => (produced retrieve t p).isNone),
        ⟨(pairs t.providerConf).any fun p => (produced retrieve t p).isNone, allAttempts t⟩) := by
  rw [getProvider_active retrieve ht, map_eq_ok]
  simp only [mapM_retrieveOutcome_eq_ok]
  constructor
  · rintro ⟨r, ⟨hh, rfl⟩, rfl⟩
    exact ⟨hh, by rw [any_produced, reduceOption_produced]⟩
  · rintro ⟨hh, rfl⟩
    exact ⟨_, ⟨hh, rfl⟩, by rw [any_produced, reduceOption_produced]⟩

/-- A provider that is not active is not connected to. -/
theorem getProvider_inactive {t : ProviderThread} (ht : t.providerConf.status ≠ .active)
    (parallel : Bool) :
    (getProvider retrieve t parallel).run {} = .ok ((t.providerConf, [], false), {}) := by
  simp only [getProvider, ht, ne_eq, not_false_eq_true, ite_true]
  rfl

/-- A thread returns its configuration. -/
theorem getProvider_conf {t : ProviderThread} {parallel : Bool}
    {res : (Provider × List ConnectionData × Bool) × Log Attempt}
    (h : (getProvider retrieve t parallel).run {} = .ok res) : res.1.1 = t.providerConf := by
  by_cases ht : t.providerConf.status = .active
  · obtain ⟨-, hres⟩ := (getProvider_eq_ok _ ht).mp h
    rw [hres]
  · rw [getProvider_inactive _ ht] at h
    cases h
    rfl

/-- A thread returns the data that its pairs produced, if it is active. -/
theorem getProvider_data {t : ProviderThread} {parallel : Bool}
    {res : (Provider × List ConnectionData × Bool) × Log Attempt}
    (h : (getProvider retrieve t parallel).run {} = .ok res) (d : ConnectionData) :
    d ∈ res.1.2.1 ↔
      t.providerConf.status = .active ∧ ∃ p ∈ pairs t.providerConf, produced retrieve t p = some d := by
  by_cases ht : t.providerConf.status = .active
  · obtain ⟨-, rfl⟩ := (getProvider_eq_ok _ ht).mp h
    rw [and_iff_right ht]
    exact List.mem_filterMap
  · rw [getProvider_inactive _ ht] at h
    cases h
    exact iff_of_false List.not_mem_nil fun h => ht h.1

end

end FRF.Proof
