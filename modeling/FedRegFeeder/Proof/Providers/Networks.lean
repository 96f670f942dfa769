import FedRegFeeder.Framework.Counts
import FedRegFeeder.Proof.Providers.Images

/-!
# The default networks of a project

Networks are of two classes, router-external or not, and a project may be
configured with a default network for each. `get_network_service` returns what
`get_networks` does, with new flags (`markDefaults_eq`): a network is default
when the cloud says so, when it has the name configured for its class, or when
none is configured and it is the only one of its class
(`getNetworkService_marks`).
-/

namespace FRF.Spec

open FRF.Impl

/-- The default network configured for the router-external networks, or for the
others. -/
def classDefault (projectConf : Project) (isRouterExternal : Bool) : Option String :=
  if isRouterExternal then projectConf.defaultPublicNet else projectConf.defaultPrivateNet

/-- The network at `i` is the only one of its class. -/
def OnlyOfClass (networks : List Network) (i : Nat) (n : Network) : Prop :=
  ∀ j m, networks[j]? = some m → m.isRouterExternal = n.isRouterExternal → j = i

/-- The same networks in the same order, with new flags. -/
structure Marked (projectConf : Project) (networks marked : List Network) : Prop where
  length : marked.length = networks.length
  flag : ∀ i n, networks[i]? = some n → ∃ b, marked[i]? = some { n with isDefault := b } ∧
    (b = true ↔ n.isDefault = true ∨ classDefault projectConf n.isRouterExternal = some n.name ∨
      classDefault projectConf n.isRouterExternal = none ∧ OnlyOfClass networks i n)

end FRF.Spec

namespace FRF.Proof

open FRF.Impl FRF.Impl.OpenstackData FRF.Spec
open Framework

variable {conn : Connection} {projectConf : Project}

/-! ## The flags -/

theorem isDefaultNetwork_iff (projectConf : Project) (n : Network) (isUnique : Bool) :
    isDefaultNetwork n projectConf.defaultPrivateNet projectConf.defaultPublicNet isUnique = true ↔
      n.isDefault = true ∨ classDefault projectConf n.isRouterExternal = some n.name ∨
        classDefault projectConf n.isRouterExternal = none ∧ isUnique = true := by
  cases h : n.isRouterExternal <;>
    simp only [isDefaultNetwork, classDefault, h, Bool.and_true, Bool.and_false, Bool.not_true,
      Bool.not_false, Bool.false_or, Bool.or_false, Bool.true_and, Bool.false_and, Bool.or_eq_true,
      Bool.and_eq_true, decide_eq_true_eq, Option.isNone_iff_eq_none, ite_true, Bool.false_eq_true,
      ite_false] <;>
    tauto

/-- The flag that the loop gives a network. -/
def defaultFlag (projectConf : Project) (networks : List Network) (n : Network) : Bool :=
  isDefaultNetwork n projectConf.defaultPrivateNet projectConf.defaultPublicNet
    (networks.countP (·.isRouterExternal = n.isRouterExternal) = 1)

theorem markDefaults_eq (projectConf : Project) (networks : List Network) :
    markDefaults projectConf networks =
      networks.map fun n => { n with isDefault := defaultFlag projectConf networks n } := by
  refine List.map_congr_left fun n _ => ?_
  rw [defaultFlag]
  cases h : n.isRouterExternal <;> simp [List.countP_eq_length_filter]

theorem marked_markDefaults (projectConf : Project) (networks : List Network) :
    Marked projectConf networks (markDefaults projectConf networks) := by
  rw [markDefaults_eq]
  refine ⟨List.length_map _, fun i n hn => ⟨defaultFlag projectConf networks n, ?_, ?_⟩⟩
  · rw [List.getElem?_map, hn]
    rfl
  · have honly := countP_eq_one_iff (p := fun m : Network => m.isRouterExternal = n.isRouterExternal)
      hn (decide_eq_true rfl)
    simp only [decide_eq_true_eq] at honly
    rw [defaultFlag, isDefaultNetwork_iff, decide_eq_true_eq, honly]
    rfl

/-! ## The run -/

theorem getEndpoint_some {r : Except Py.SdkError (Option String)} {s s' : Bool} {endpoint : String}
    (h : getEndpoint r s = .ok (some endpoint, s')) : s' = s := by
  unfold getEndpoint at h
  split at h
  · cases h
  · obtain ⟨⟨o, s₁⟩, hcall, hpure⟩ := bind_eq_ok.mp h
    obtain ⟨a, -, ha⟩ := bind_eq_ok.mp hcall
    cases ha
    exact (Prod.mk.inj (Except.ok.inj hpure)).2.symm

theorem getNetworkService_eq_ok {networkTags : List String} {s s' : Bool}
    {service : NetworkServiceCreateExtended}
    (h : getNetworkService conn projectConf networkTags s = .ok (some service, s')) :
    ∃ networks s₁, getNetworks conn projectConf.privateNetProxy networkTags s = .ok (networks, s₁) ∧
      service.networks = markDefaults projectConf networks := by
  obtain ⟨⟨endpoint, s₀⟩, hendpoint, h⟩ := bind_eq_ok.mp h
  cases endpoint with
  | none => cases h
  | some endpoint =>
    rw [getEndpoint_some hendpoint] at h
    obtain ⟨⟨networks, s₁⟩, hnetworks, h⟩ := bind_eq_ok.mp h
    obtain ⟨⟨quotas, s₂⟩, -, h⟩ := bind_eq_ok.mp h
    cases h
    exact ⟨networks, s₁, hnetworks, rfl⟩

/-- What is configured for the other class does not matter. -/
theorem filter_markDefaults_congr {projectConf' : Project} {c : Bool}
    (h : classDefault projectConf' c = classDefault projectConf c) (networks : List Network) :
    (markDefaults projectConf' networks).filter (·.isRouterExternal = c) =
      (markDefaults projectConf networks).filter (·.isRouterExternal = c) := by
  rw [markDefaults_eq, markDefaults_eq, List.filter_map, List.filter_map]
  refine List.map_congr_left fun n hn => ?_
  have hc : n.isRouterExternal = c := of_decide_eq_true (List.mem_filter.mp hn).2
  have hflag : defaultFlag projectConf' networks n = defaultFlag projectConf networks n := by
    rw [Bool.eq_iff_iff, defaultFlag, defaultFlag, isDefaultNetwork_iff, isDefaultNetwork_iff, hc, h]
  rw [hflag]

/-- The networks of the service are those that `get_networks` returns, in their
order, and only their flags are new: a network is default if and only if it was
so in the cloud, has the name configured for its class, or is the only one of
its class and no name is configured for it. What is configured for one class
does not affect the networks of the other. -/
theorem getNetworkService_marks {networkTags : List String} {s s' : Bool}
    {service : NetworkServiceCreateExtended}
    (h : (getNetworkService conn projectConf networkTags).run s = .ok (some service, s')) :
    (∃ networks s₁, (getNetworks conn projectConf.privateNetProxy networkTags).run s =
        .ok (networks, s₁) ∧ Marked projectConf networks service.networks) ∧
      ∀ projectConf' service' s₁ c, projectConf'.privateNetProxy = projectConf.privateNetProxy →
        classDefault projectConf' c = classDefault projectConf c →
        (getNetworkService conn projectConf' networkTags).run s = .ok (some service', s₁) →
          service'.networks.filter (·.isRouterExternal = c) =
            service.networks.filter (·.isRouterExternal = c) := by
  obtain ⟨networks, s₁, hrun, hnetworks⟩ := getNetworkService_eq_ok h
  refine ⟨⟨networks, s₁, hrun, hnetworks ▸ marked_markDefaults projectConf networks⟩, ?_⟩
  intro projectConf' service' s₂ c hproxy hdefault h'
  obtain ⟨networks', s₃, hrun', hnetworks'⟩ := getNetworkService_eq_ok h'
  rw [hproxy, hrun] at hrun'
  cases hrun'
  rw [hnetworks, hnetworks']
  exact filter_markDefaults_congr hdefault networks

/-- A cloud with one router-external network and one other. -/
private def networkCloud : Connection :=
  { imageCloud "cms" [] with
    networkEndpoint := .ok (some "https://neutron.recas.it")
    networks := fun _ => { items :=
      [{ id := "1", name := "public", isShared := true, projectId := "admin", isRouterExternal := true },
       { id := "2", name := "private", isShared := false, projectId := "cms" }] } }

/-- The router-external network is the only one of its class, and none is
configured. -/
theorem getNetworkService_marks_sample : ∃ service,
    (getNetworkService networkCloud { id := "cms", sla := "sla" } []).run false =
      .ok (some service, false) ∧
    ∃ n ∈ service.networks, n.isRouterExternal = true ∧ n.isDefault = true := by
  have hrun : ∃ service, (getNetworkService networkCloud { id := "cms", sla := "sla" } []).run false =
      .ok (some service, false) := ⟨_, rfl⟩
  obtain ⟨service, hrun⟩ := hrun
  obtain ⟨⟨networks, s₁, hnetworks, hmarked⟩, -⟩ := getNetworkService_marks hrun
  cases hnetworks
  obtain ⟨b, hb, hflag⟩ := hmarked.flag 0 _ rfl
  refine ⟨service, hrun, _, List.mem_of_getElem? hb, rfl, hflag.mpr (.inr (.inr ⟨rfl, ?_⟩))⟩
  rintro (_ | _ | j) m hm hclass
  · rfl
  · cases hm
    cases hclass
  · cases hm

end FRF.Proof
