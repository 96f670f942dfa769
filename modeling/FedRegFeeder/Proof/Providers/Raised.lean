import FedRegFeeder.Framework.Raises
import FedRegFeeder.Proof.Providers.Retrieved

/-!
# What brings a run down

A failed request costs a run one connection at most, unless its exception is
none of those the program handles. `getProvider_raises` names, for an exception
that gets out of `get_provider`, the answer it comes from (`Escapes`): a
connection that cannot be opened, an exception of the SDK that is not listed, a
number of GPUs or a quantity that is not a number, a token that cannot be
retrieved, an answer of a Kubernetes API that cannot be read.
-/

namespace FRF.Spec

open FRF.Impl
open Py (PyError SdkError ApiBody)

/-- Some request on the connection ends with the exception, which is not
handled where the request is made. -/
inductive CloudRaises (conn : Connection) (e : SdkError) : Prop
  | currentProject : conn.currentProjectId = .error e → CloudRaises conn e
  | project {id : String} : conn.getProject id = .error e → CloudRaises conn e
  | endpoint : conn.blockStorageEndpoint = .error e ∨ conn.computeEndpoint = .error e ∨
    conn.networkEndpoint = .error e → e ≠ .endpointNotFound → CloudRaises conn e
  | blockStorageQuotas {id : String} : conn.blockStorageQuotaSet id = .error e →
    e ≠ .forbiddenException → CloudRaises conn e
  | computeQuotas {id : String} : conn.computeQuotaSet id = .error e → CloudRaises conn e
  | networkQuotas {id : String} : conn.networkQuota id = .error e → CloudRaises conn e
  | flavors : conn.flavors.fails = some e → CloudRaises conn e
  | flavorAccess {f : SdkFlavor} : f ∈ conn.flavors.items → (conn.flavorAccess f).fails = some e →
    e ≠ .forbiddenException → CloudRaises conn e
  | images {tag : Option String} : (conn.images tag).fails = some e → CloudRaises conn e
  | members {i : SdkImage} : (conn.members i).fails = some e → CloudRaises conn e
  | networks {tags : Option (List String)} : (conn.networks tags).fails = some e → CloudRaises conn e
  | catalog : conn.serviceCatalog = .error e → CloudRaises conn e

/-- What opening the connection to a cloud ends with. -/
def connectOf (w : World) (c : ConnectionThread) : Except PyError Connection := do
  let r ← Py.index0 c.providerConf.regions
  let p ← Py.index0 c.providerConf.projects
  let a ← Py.index0 c.providerConf.identityProviders
  w.connectOpenstack (OpenstackData.connectArgs c.providerConf c.issuer r p a)

/-- The answer that an exception which gets out of a retrieval comes from. -/
inductive Escapes (w : World) (c : ConnectionThread) (e : PyError) : Prop
  | connect : c.providerConf.type = .openstack → connectOf w c = .error e → Escapes w c e
  | sdk {conn : Connection} {s : SdkError} : c.providerConf.type = .openstack →
    cloudOf w c = some conn → CloudRaises conn s → SdkError.aborts s = false → e = .sdk s → Escapes w c e
  | gpuNumber {conn : Connection} {f : SdkFlavor} {n : String} : c.providerConf.type = .openstack →
    cloudOf w c = some conn → f ∈ conn.flavors.items → f.extraSpecs.lookup "gpu_number" = some n →
    Py.int n = .error e → Escapes w c e
  | token {caPath : Option String} : c.providerConf.kind = .kubernetes caPath →
    clusterOf w c caPath = .error e → Escapes w c e
  | cluster {caPath : Option String} {cluster : Cluster} {p : Project} :
    c.providerConf.kind = .kubernetes caPath → c.providerConf.projects = [p] →
    clusterOf w c caPath = .ok cluster → ClusterRaises cluster p.id e → e ≠ .maxRetryError →
    (∀ status body, e ≠ .apiException status body) → Escapes w c e
  | body {caPath : Option String} {cluster : Cluster} {p : Project} {body : ApiBody} :
    c.providerConf.kind = .kubernetes caPath → c.providerConf.projects = [p] →
    clusterOf w c caPath = .ok cluster → ClusterRaises cluster p.id (.apiException 403 body) →
    (∀ text, body ≠ .message text) → Escapes w c e

end FRF.Spec

namespace FRF.Proof

open FRF.Impl FRF.Impl.ProviderThread FRF.Spec
open Py (PyError SdkError ApiBody)
open Framework

/-! ## OpenStack -/

section
open OpenstackData

variable {conn : Connection}

/-- What is raised before anything is translated. -/
def Raw (conn : Connection) (e : PyError) : Prop :=
  (∃ s, CloudRaises conn s ∧ e = .sdk s) ∨
    ∃ f ∈ conn.flavors.items, ∃ n, f.extraSpecs.lookup "gpu_number" = some n ∧ Py.int n = .error e

theorem raises_call {α : Type} {r : Except SdkError α} (h : ∀ e, r = .error e → CloudRaises conn e) :
    Raises (call r) (Raw conn) := by
  refine Raises.lift fun e he => ?_
  cases r with
  | ok a => cases he
  | error s => cases he; exact .inl ⟨s, h s rfl, rfl⟩

theorem raises_raiseEnd {fails : Option SdkError} (h : ∀ e, fails = some e → CloudRaises conn e) :
    Raises (raiseEnd fails) (Raw conn) := by
  cases fails with
  | none => exact Raises.pure _
  | some e => exact Raises.throw (.inl ⟨e, h e rfl, rfl⟩)

theorem raises_forEach {α β : Type} {g : Generator α} {body : α → Retrieve β}
    (hg : ∀ e, g.fails = some e → CloudRaises conn e) (hf : ∀ a ∈ g.items, Raises (body a) (Raw conn)) :
    Raises (forEach g body) (Raw conn) :=
  (Raises.mapM hf).bind fun _ => (raises_raiseEnd hg).bind fun _ => Raises.pure _

theorem raises_getEndpoint {r : Except SdkError (Option String)}
    (h : ∀ e, r = .error e → e ≠ .endpointNotFound → CloudRaises conn e) :
    Raises (getEndpoint r) (Raw conn) := by
  unfold getEndpoint
  split
  · exact (Raises.set true).bind fun _ => Raises.pure _
  · rename_i hr
    refine (raises_call fun e he => h e he ?_).bind fun _ => Raises.pure _
    rintro rfl
    exact hr he

theorem raises_current : Raises (call conn.currentProjectId) (Raw conn) :=
  raises_call fun _ => .currentProject

theorem raises_getBlockStorageQuotas : Raises (getBlockStorageQuotas conn) (Raw conn) := by
  refine raises_current.bind fun project => Raises.bind ?_ fun _ => Raises.pure _
  unfold getBlockStorageQuotaSet
  split
  · exact (Raises.set true).bind fun _ => Raises.pure _
  · rename_i hr
    refine raises_call fun e he => .blockStorageQuotas he ?_
    rintro rfl
    exact hr he

theorem raises_serviceQuotas {quotas : Retrieve (QuotaCreateExtended × QuotaCreateExtended)}
    (hq : Raises quotas (Raw conn)) (limits : Option PerUserQuota) :
    Raises (serviceQuotas conn quotas limits) (Raw conn) := by
  refine hq.bind fun q => ?_
  cases limits with
  | none => exact Raises.pure _
  | some limits => exact raises_current.bind fun _ => Raises.pure _

theorem raises_getFlavorExtraSpecs {f : SdkFlavor} (hf : f ∈ conn.flavors.items) (data : Flavor) :
    Raises (StateT.lift (getFlavorExtraSpecs f.extraSpecs data) : Retrieve Flavor) (Raw conn) := by
  refine Raises.lift fun e he => .inr ?_
  unfold getFlavorExtraSpecs at he
  dsimp only at he
  split at he
  · rename_i n hn
    rcases bind_eq_error.mp he with h | ⟨_, -, h⟩
    · exact ⟨f, hf, n, hn, h⟩
    · cases h
  · cases he

theorem raises_flavorOf {f : SdkFlavor} (hf : f ∈ conn.flavors.items) :
    Raises (flavorOf conn f) (Raw conn) := by
  have hprojects : Raises (getFlavorProjects conn f) (Raw conn) := by
    unfold getFlavorProjects
    dsimp only
    split
    · exact (Raises.set true).bind fun _ => Raises.pure _
    · rename_i hfails
      refine (raises_raiseEnd fun e he => .flavorAccess hf he ?_).bind fun _ => Raises.pure _
      rintro rfl
      exact hfails he
  have hrest : ∀ access data, Raises (if f.extraSpecs = [] then pure data >>= fun data =>
      (pure (if access = Access.priv [] then none else some data) : Retrieve (Option Flavor))
      else StateT.lift (getFlavorExtraSpecs f.extraSpecs data) >>= fun data =>
        pure (if access = Access.priv [] then none else some data)) (Raw conn) := by
    intro access data
    split
    · exact (Raises.pure _).bind fun _ => Raises.pure _
    · exact (raises_getFlavorExtraSpecs hf data).bind fun _ => Raises.pure _
  unfold flavorOf
  dsimp only
  split
  · exact (Raises.pure _).bind fun _ => hrest _ _
  · exact (hprojects.map _).bind fun _ => hrest _ _

theorem raises_getFlavors : Raises (getFlavors conn) (Raw conn) :=
  (raises_forEach (fun _ => .flavors) fun _ => raises_flavorOf).bind fun _ => Raises.pure _

theorem raises_imageOf (i : SdkImage) : Raises (imageOf conn i) (Raw conn) := by
  have hprojects : Raises (getImageProjects conn i) (Raw conn) :=
    (raises_forEach (fun _ => .members) fun _ _ => Raises.pure _).bind fun _ => Raises.pure _
  unfold imageOf
  dsimp only
  split
  · exact (Raises.pure _).bind fun _ => Raises.pure _
  · split
    · exact (hprojects.map _).bind fun _ => Raises.pure _
    · exact (Raises.pure _).bind fun _ => Raises.pure _

theorem raises_getImages (tags : List String) : Raises (getImages conn tags) (Raw conn) := by
  have htag : ∀ osImages tag, Raises (imagesWithTag conn osImages tag) (Raw conn) := fun _ _ =>
    (raises_forEach (fun _ => .images) fun _ _ => Raises.pure _).bind fun _ => Raises.pure _
  unfold getImages
  split
  · exact (Raises.foldlM htag _ _).bind fun _ => Raises.mapM fun i _ => raises_imageOf i
  · exact raises_forEach (fun _ => .images) fun i _ => raises_imageOf i

theorem raises_getNetworks (proxy : Option PrivateNetProxy) (tags : List String) :
    Raises (getNetworks conn proxy tags) (Raw conn) := by
  refine raises_forEach (fun _ => .networks) fun n _ => ?_
  unfold networkOf
  dsimp only
  split
  · exact (Raises.pure _).bind fun _ => Raises.pure _
  · exact (raises_current.map _).bind fun _ => Raises.pure _

theorem raises_getProject : Raises (getProject conn) (Raw conn) :=
  raises_current.bind fun _ => (raises_call fun _ => .project).bind fun _ => Raises.pure _

section
variable (projectConf : Project)

theorem raises_getBlockStorageService :
    Raises (getBlockStorageService conn projectConf) (Raw conn) := by
  refine Raises.bind (raises_getEndpoint fun e he => .endpoint (.inl he)) fun endpoint => ?_
  cases endpoint with
  | none => exact Raises.pure _
  | some endpoint =>
    exact (raises_serviceQuotas raises_getBlockStorageQuotas _).bind fun _ => Raises.pure _

theorem raises_getComputeService (imageTags : List String) :
    Raises (getComputeService conn projectConf imageTags) (Raw conn) := by
  have hquotas : Raises (getComputeQuotas conn) (Raw conn) :=
    raises_current.bind fun _ => (raises_call fun _ => .computeQuotas).bind fun _ => Raises.pure _
  refine Raises.bind (raises_getEndpoint fun e he => .endpoint (.inr (.inl he))) fun endpoint => ?_
  cases endpoint with
  | none => exact Raises.pure _
  | some endpoint =>
    exact raises_getFlavors.bind fun _ => (raises_getImages _).bind fun _ =>
      (raises_serviceQuotas hquotas _).bind fun _ => Raises.pure _

theorem raises_getNetworkService (networkTags : List String) :
    Raises (getNetworkService conn projectConf networkTags) (Raw conn) := by
  have hquotas : Raises (getNetworkQuotas conn) (Raw conn) :=
    raises_current.bind fun _ => (raises_call fun _ => .networkQuotas).bind fun _ => Raises.pure _
  refine Raises.bind (raises_getEndpoint fun e he => .endpoint (.inr (.inr he))) fun endpoint => ?_
  cases endpoint with
  | none => exact Raises.pure _
  | some endpoint =>
    exact (raises_getNetworks _ _).bind fun _ =>
      (raises_serviceQuotas hquotas _).bind fun _ => Raises.pure _

theorem raises_getS3Services (regionName : String) :
    Raises (getS3Services conn projectConf regionName) (Raw conn) := by
  have hquotas : Raises (getS3Quotas conn) (Raw conn) := raises_current.bind fun _ => Raises.pure _
  exact (raises_call fun _ => .catalog).bind fun _ => Raises.mapM fun _ _ =>
    (raises_serviceQuotas hquotas _).bind fun _ => Raises.pure _

end

/-- What is raised is translated if it is one of the exceptions listed. -/
theorem abort_cases (e : PyError) : abort e = .openstackProviderError ∨
    abort e = e ∧ ∀ s, e = .sdk s → SdkError.aborts s = false := by
  cases e with
  | sdk s =>
    rw [abort]
    cases haborts : SdkError.aborts s with
    | true => exact .inl rfl
    | false => exact .inr ⟨rfl, fun s' hs' => by cases hs'; exact haborts⟩
  | _ => exact .inr ⟨rfl, fun s hs => by cases hs⟩

theorem raises_retrieveInfo {providerConf : Provider} {imageTags networkTags : List String}
    {issuer : Issuer} {region : Region} {projectConf : Project} :
    Raises (retrieveInfo conn providerConf imageTags networkTags issuer region projectConf) fun e =>
      e = .openstackProviderError ∨ Raw conn e ∧ ∀ s, e = .sdk s → SdkError.aborts s = false := by
  refine Raises.mapError (E := Raw conn) ?_ fun e he => ?_
  · refine raises_getProject.bind fun _ => ?_
    refine (raises_getBlockStorageService _).bind fun _ => ?_
    refine (raises_getComputeService _ _).bind fun _ => ?_
    refine (raises_getNetworkService _ _).bind fun _ => ?_
    exact (raises_getS3Services _ _).bind fun _ => Raises.get.bind fun _ => Raises.pure _
  · rcases abort_cases e with habort | ⟨habort, haborts⟩ <;> rw [habort]
    · exact .inl rfl
    · exact .inr ⟨he, haborts⟩

end

/-! ## Kubernetes -/

section
open KubernetesData

variable {cluster : Cluster}

/-- An answer of the API that is an error is recorded; what cannot be read of
it is raised. -/
theorem raises_kubernetes {names : ServiceNames} {providerConf : Provider} {issuer : Issuer}
    {projectConf : Project} :
    Raises (retrieveInfo names cluster providerConf issuer projectConf) fun e =>
      (ClusterRaises cluster projectConf.id e ∧ e ≠ .maxRetryError ∧
        ∀ status body, e ≠ .apiException status body) ∨
      ∃ body, ClusterRaises cluster projectConf.id (.apiException 403 body) ∧
        ∀ text, body ≠ .message text := by
  refine Raises.get.bind fun error => ?_
  simp only
  split
  · exact Raises.pure _
  · rename_i status body hs
    refine (Raises.set true).bind fun _ => Raises.bind (Raises.lift fun e he => .inr ?_) fun _ =>
      Raises.get.bind fun _ => Raises.pure _
    unfold logApiException at he
    split at he
    · rename_i hstatus
      refine ⟨body, hstatus ▸ getServices_eq_error hs, ?_⟩
      rintro text rfl
      cases he
    · cases he
  · exact (Raises.set true).bind fun _ => Raises.get.bind fun _ => Raises.pure _
  · rename_i e hapi hretry hs
    exact Raises.throw (.inl ⟨getServices_eq_error hs, hretry, hapi⟩)

end

/-! ## Connections -/

/-- What a retrieval raises gets out unless it is handled. -/
theorem retrieveOutcome_eq_error {r : Except PyError ConnectionData} {e : PyError}
    (h : retrieveOutcome r = .error e) : r = .error e ∧ ¬ Handled e := by
  match r with
  | .ok data => cases h
  | .error e' => cases e' <;> cases h <;> exact ⟨rfl, by rintro (h | h | ⟨_, h⟩) <;> cases h⟩

section
variable {w : World} {c : ConnectionThread} {r : Region} {p : Project} {a : AuthMethod} {e : PyError}

theorem raises_openstackInit {imageTags networkTags : List String}
    (hr : c.providerConf.regions = [r]) (hp : c.providerConf.projects = [p])
    (ha : c.providerConf.identityProviders = [a])
    (hkind : c.providerConf.kind = .openstack imageTags networkTags) :
    Raises (OpenstackData.init w.connectOpenstack c.providerConf imageTags networkTags c.issuer)
      fun e => Handled e ∨ Escapes w c e := by
  have htype : c.providerConf.type = .openstack := by rw [Provider.type, hkind]
  have hinvalid : ∀ e, OpenstackData.invalidConf e = .openstackProviderError ∨
      OpenstackData.invalidConf e = e := by
    intro e
    cases e with
    | assertionError m => exact .inl rfl
    | _ => exact .inr rfl
  rw [OpenstackData.init, checkConf_bind hr hp ha]
  refine Raises.mapError (E := fun e => Handled e ∨ Escapes w c e) ?_ fun e he => ?_
  · refine Raises.bind_yields (Raises.lift fun e he => .inr (.connect htype ?_))
      (Yields.lift fun _ => id) fun conn hconn => ?_
    · simp only [connectOf, hr, hp, ha, Py.index0, ok_bind]
      exact he
    · have hcloud : cloudOf w c = some conn := by
        simp only [cloudOf, hp, hr, ha, List.head?_cons, hconn, Option.bind_eq_bind,
          Option.bind_some, Except.toOption]
      refine raises_retrieveInfo.imp fun e he => ?_
      rcases he with rfl | ⟨⟨s, hs, rfl⟩ | ⟨f, hf, n, hn, hint⟩, haborts⟩
      · exact .inl (.inl rfl)
      · exact .inr (.sdk htype hcloud hs (haborts s rfl) rfl)
      · exact .inr (.gpuNumber htype hcloud hf hn hint)
  · rcases hinvalid e with hi | hi <;> rw [hi]
    · exact .inl (.inl rfl)
    · exact he

theorem raises_kubernetesInit {caPath : Option String}
    (hr : c.providerConf.regions = [r]) (hp : c.providerConf.projects = [p])
    (ha : c.providerConf.identityProviders = [a]) (hkind : c.providerConf.kind = .kubernetes caPath) :
    Raises (KubernetesData.init w.serviceNames w.agent w.connectKubernetes c.providerConf caPath
      c.issuer) fun e => Handled e ∨ Escapes w c e := by
  have hcluster : clusterOf w c caPath =
      (retrieveToken w.agent c.issuer.endpoint a.audience).map fun token =>
        w.connectKubernetes c.providerConf.authUrl token caPath := by
    simp only [clusterOf, ha, Py.index0, ok_bind]
    cases retrieveToken w.agent c.issuer.endpoint a.audience <;> rfl
  have hinvalid : ∀ e, KubernetesData.invalidConf e = .kubernetesProviderError ∨
      KubernetesData.invalidConf e = e := by
    intro e
    cases e with
    | assertionError m => exact .inl rfl
    | _ => exact .inr rfl
  rw [KubernetesData.init, checkConf_bind hr hp ha]
  refine Raises.mapError (E := Escapes w c) ?_ fun e he => ?_
  · refine Raises.bind_yields (Raises.lift fun e he => .token hkind ?_) (Yields.lift fun _ => id)
      fun token htoken => ?_
    · rw [hcluster, he]
      rfl
    · rw [htoken] at hcluster
      refine raises_kubernetes.imp fun e he => ?_
      rcases he with ⟨he, hretry, hapi⟩ | ⟨body, he, hbody⟩
      · exact .cluster hkind hp hcluster he hretry hapi
      · exact .body hkind hp hcluster he hbody
  · rcases hinvalid e with hi | hi <;> rw [hi]
    · exact .inl (.inr (.inl rfl))
    · exact .inr he

/-- What a connection for one region, project and authentication method raises
is handled, or comes from an answer. -/
theorem getProviderData_raises (hr : c.providerConf.regions = [r]) (hp : c.providerConf.projects = [p])
    (ha : c.providerConf.identityProviders = [a]) (h : getProviderData w c = .error e) :
    Handled e ∨ Escapes w c e := by
  -- what raises an exception of this kind raises it when it is run
  have hrun : ∀ {x : Retrieve ConnectionData}, Raises x (fun e => Handled e ∨ Escapes w c e) →
      (x.run false).map Prod.fst = .error e → Handled e ∨ Escapes w c e := by
    intro x hx hmap
    cases hrun : x.run false with
    | ok d => rw [hrun] at hmap; cases hmap
    | error e' => rw [hrun] at hmap; cases hmap; exact hx false e hrun
  cases hkind : c.providerConf.kind with
  | openstack imageTags networkTags =>
    simp only [getProviderData, hkind] at h
    exact hrun (raises_openstackInit hr hp ha hkind) h
  | kubernetes caPath =>
    simp only [getProviderData, hkind] at h
    exact hrun (raises_kubernetesInit hr hp ha hkind) h

end

/-! ## Runs -/

/-- An exception that gets out of `get_provider` was raised by the retrieval of
one of the connections, where it comes from one of the answers listed. -/
theorem getProvider_raises {w : World} {t : ProviderThread} {parallel : Bool} {e : PyError}
    (h : (getProvider (getProviderData w) t parallel).run {} = .error e) :
    ∃ c ∈ connections t, getProviderData w c = .error e ∧ ¬ Handled e ∧ Escapes w c e := by
  by_cases ht : t.providerConf.status = .active
  · rw [getProvider_active _ ht] at h
    cases hall : (connections t).mapM fun c => retrieveOutcome (getProviderData w c) with
    | ok r => rw [hall] at h; cases h
    | error e' =>
      rw [hall] at h
      cases h
      obtain ⟨c, hc, he⟩ := mapM_error_mem hall
      obtain ⟨p, -, hconnect⟩ := mem_connections.mp hc
      obtain ⟨issuer, a, -, -, rfl⟩ := connect_eq_ok.mp hconnect
      have hdata : getProviderData w _ = .error e ∧ ¬ Handled e := retrieveOutcome_eq_error he
      have hraises := getProviderData_raises rfl rfl rfl hdata.1
      exact ⟨_, hc, hdata.1, hdata.2, hraises.resolve_left hdata.2⟩
  · rw [getProvider_inactive _ ht] at h
    cases h

/-- The exception comes from the token. -/
theorem getProvider_raises_sample : ∃ c ∈ connections sampleThread,
    Escapes noTokenWorld c (.valueError "oidc-agent not running") := by
  have hrun : (getProvider (getProviderData noTokenWorld) sampleThread true).run {} =
      .error (.valueError "oidc-agent not running") := rfl
  obtain ⟨c, hc, -, -, hescapes⟩ := getProvider_raises hrun
  exact ⟨c, hc, hescapes⟩

end FRF.Proof
