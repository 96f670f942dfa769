import FedRegFeeder.Proof.Providers.K8s

/-!
# The services of a namespace

`get_services` asks a cluster for the quotas of a namespace and for its storage
classes. What it returns are the services of what the cluster lists
(`getServices_servicesOf`), and what it raises comes from one of the two answers
(`getServices_eq_error`). The errors of the API are recorded and give no
services; the others get out.
-/

namespace FRF.Spec

open FRF.Impl FRF.Impl.KubernetesData
open Py (PyError)

/-- What a cluster answers about a namespace: its quotas, and the storage
classes, none if the client cannot read the answer. -/
structure ClusterLists (cluster : Cluster) (project : String) (objects : List ResourceQuota)
    (classes : List SdkStorageClass) : Prop where
  objects : cluster.listNamespacedResourceQuota project = .ok objects
  classes : cluster.listStorageClass = .ok classes ∨
    classes = [] ∧ ∃ m, cluster.listStorageClass = .error (.valueError m)

/-- A cluster answers both requests about a namespace. -/
def Answering (cluster : Cluster) (project : String) : Prop :=
  ∃ objects classes, ClusterLists cluster project objects classes

/-- A request about a namespace ends with an error of the API. -/
def ApiFails (cluster : Cluster) (project : String) : Prop :=
  ∃ e, (cluster.listNamespacedResourceQuota project = .error e ∨ cluster.listStorageClass = .error e) ∧
    (e = .maxRetryError ∨ ∃ status body, e = .apiException status body)

/-- The limits or the usage of a namespace: under each field of the category the
value of the last entry that is recorded there. -/
structure FiguresOf (objects : List ResourceQuota) (c : Category) (s : Side) (project : String)
    (q : QuotaCreateExtended) : Prop where
  figures : ∀ field, q.figures.lookup field = if field ∈ c.fields then
    (lastEntry field (objects.flatMap s.entries)).map fun e => (valueOf e.2).toOption else none
  others : q = { figures := q.figures, project, usage := s = .usage }

/-- The record of a storage class. -/
def storageClassRecord (s : SdkStorageClass) : StorageClassCreateExtended :=
  { name := s.name
    isDefault := s.annotations.bind (·.lookup "storageclass.kubernetes.io/is-default-class")
    provisioner := s.provisioner }

/-- The services of a namespace: limits, usage and per-user limits of each, and
the storage classes. -/
structure ServicesOf (names : ServiceNames) (authUrl : String) (p : Project)
    (objects : List ResourceQuota) (classes : List SdkStorageClass)
    (b : BlockStorageServiceCreateExtended) (c : ComputeServiceCreateExtended) : Prop where
  blockStorage : ∃ limits usage, FiguresOf objects .blockStorage .limit p.id limits ∧
    FiguresOf objects .blockStorage .usage p.id usage ∧
    b = { endpoint := authUrl ++ "/" ++ names.blockStorage, name := .kubernetes
          quotas := [limits, usage] ++ (p.perUserLimits.blockStorage.map (·.on p.id)).toList
          storageClasses := classes.map storageClassRecord }
  compute : ∃ limits usage, FiguresOf objects .compute .limit p.id limits ∧
    FiguresOf objects .compute .usage p.id usage ∧
    c = { endpoint := authUrl ++ "/" ++ names.compute, name := .kubernetes
          quotas := [limits, usage] ++ (p.perUserLimits.compute.map (·.on p.id)).toList }

/-- Reading the quotas of a namespace and the storage classes of its cluster
raises the exception. -/
inductive ClusterRaises (cluster : Cluster) (project : String) (e : PyError) : Prop
  | quotas : cluster.listNamespacedResourceQuota project = .error e → ClusterRaises cluster project e
  | status {objects : List ResourceQuota} {o : ResourceQuota} {s : Side} :
    cluster.listNamespacedResourceQuota project = .ok objects → o ∈ objects → s.map o = none →
    e = .attributeError → ClusterRaises cluster project e
  | value {objects : List ResourceQuota} {o : ResourceQuota} {s : Side} {entry : String × String} :
    cluster.listNamespacedResourceQuota project = .ok objects → o ∈ objects → entry ∈ s.entries o →
    valueOf entry.2 = .error e → ClusterRaises cluster project e
  | storageClasses : cluster.listStorageClass = .error e → (∀ m, e ≠ .valueError m) →
    ClusterRaises cluster project e
  | annotations {classes : List SdkStorageClass} {s : SdkStorageClass} :
    cluster.listStorageClass = .ok classes → s ∈ classes → s.annotations = none →
    e = .attributeError → ClusterRaises cluster project e

end FRF.Spec

namespace FRF.Proof

open FRF.Impl FRF.Impl.KubernetesData FRF.Spec
open Py (PyError)
open Framework

section
variable {names : ServiceNames} {cluster : Cluster} {authUrl : String} {p : Project}

/-! ## The services -/

theorem getQuotas_others {r : Quotas} (h : getQuotas cluster p.id = .ok r) (c : Category) (s : Side) :
    Side.of s (Category.of c r) =
      { figures := (Side.of s (Category.of c r)).figures, project := p.id, usage := s = .usage } := by
  simp only [getQuotas, bind_eq_ok, pure_eq_ok] at h
  obtain ⟨_, -, _, -, rfl⟩ := h
  cases c <;> cases s <;> rfl

theorem figuresOf_getQuotas {objects : List ResourceQuota} {r : Quotas}
    (hl : cluster.listNamespacedResourceQuota p.id = .ok objects)
    (h : getQuotas cluster p.id = .ok r) (c : Category) (s : Side) :
    FiguresOf objects c s p.id (Side.of s (Category.of c r)) :=
  ⟨getQuotas_figure hl h c s, getQuotas_others h c s⟩

theorem storageClassOf_eq_ok {s : SdkStorageClass} {r : StorageClassCreateExtended}
    (h : storageClassOf s = .ok r) : r = storageClassRecord s := by
  rw [storageClassOf] at h
  split at h
  · cases h
  · rename_i hsome
    cases h
    rw [storageClassRecord, hsome, Option.bind_some]

theorem getStorageClasses_eq_ok {r : List StorageClassCreateExtended}
    (h : getStorageClasses cluster = .ok r) : ∃ classes, (cluster.listStorageClass = .ok classes ∨
      classes = [] ∧ ∃ m, cluster.listStorageClass = .error (.valueError m)) ∧
      r = classes.map storageClassRecord := by
  have hrecords : ∀ {classes : List SdkStorageClass}, classes.mapM storageClassOf = .ok r →
      r = classes.map storageClassRecord := fun h =>
    (List.map_id r).symm.trans (mapM_map_eq (h := id) (fun _ _ _ => storageClassOf_eq_ok) h)
  unfold getStorageClasses at h
  split at h
  · rename_i hlist
    exact ⟨[], .inr ⟨rfl, _, hlist⟩, hrecords h⟩
  · obtain ⟨classes, hlist, h⟩ := bind_eq_ok.mp h
    exact ⟨classes, .inl hlist, hrecords h⟩

/-- What is returned are the services of what the cluster lists. -/
theorem getServices_servicesOf {b : BlockStorageServiceCreateExtended} {c : ComputeServiceCreateExtended}
    (h : getServices cluster p.id names authUrl p.perUserLimits = .ok (b, c)) :
    ∃ objects classes, ClusterLists cluster p.id objects classes ∧
      ServicesOf names authUrl p objects classes b c := by
  simp only [getServices, bind_eq_ok, pure_eq_ok, Prod.mk.injEq] at h
  obtain ⟨r, hr, storage, hstorage, rfl, rfl⟩ := h
  obtain ⟨classes, hclasses, rfl⟩ := getStorageClasses_eq_ok hstorage
  obtain ⟨objects, hobjects, -⟩ := bind_eq_ok.mp hr
  have hfigures := figuresOf_getQuotas hobjects hr
  exact ⟨objects, classes, ⟨hobjects, hclasses⟩,
    ⟨_, _, hfigures .blockStorage .limit, hfigures .blockStorage .usage, rfl⟩,
    ⟨_, _, hfigures .compute .limit, hfigures .compute .usage, rfl⟩⟩

/-! ## Errors -/

theorem splitQuotas_eq_error {key value : String} {data : QuotaData} {e : PyError}
    (h : splitQuotas key value data = .error e) : valueOf value = .error e := by
  unfold splitQuotas at h
  dsimp only at h
  rcases bind_eq_error.mp h with h | ⟨_, -, h⟩
  · exact h
  · split at h
    · cases h
    · split at h <;> cases h

theorem splitItems_eq_error {items : Option (List (String × String))} {data : QuotaData} {e : PyError}
    (h : splitItems items data = .error e) : items = none ∧ e = .attributeError ∨
      ∃ entry ∈ items.getD [], valueOf entry.2 = .error e := by
  cases items with
  | none => exact .inl ⟨rfl, (Except.error.inj h).symm⟩
  | some items =>
    obtain ⟨_, entry, hentry, h⟩ := foldlM_error_mem h
    exact .inr ⟨entry, hentry, splitQuotas_eq_error h⟩

theorem addQuota_eq_error {data : QuotaData × QuotaData} {o : ResourceQuota} {e : PyError}
    (h : addQuota data o = .error e) : ∃ s : Side, s.map o = none ∧ e = .attributeError ∨
      ∃ entry ∈ s.entries o, valueOf entry.2 = .error e := by
  unfold addQuota at h
  rcases bind_eq_error.mp h with h | ⟨_, -, h⟩
  · exact ⟨.limit, splitItems_eq_error h⟩
  · rcases bind_eq_error.mp h with h | ⟨_, -, h⟩
    · exact ⟨.usage, splitItems_eq_error h⟩
    · cases h

theorem getStorageClasses_eq_error {project : String} {e : PyError}
    (h : getStorageClasses cluster = .error e) : ClusterRaises cluster project e := by
  unfold getStorageClasses at h
  split at h
  · rcases bind_eq_error.mp h with h | ⟨classes, hclasses, h⟩
    · cases h
    · cases hclasses
      cases h
  · rename_i hvalue
    rcases bind_eq_error.mp h with h | ⟨classes, hclasses, h⟩
    · exact .storageClasses h fun m hm => hvalue m (hm ▸ h)
    · obtain ⟨s, hs, h⟩ := mapM_error_mem h
      unfold storageClassOf at h
      split at h
      · rename_i hnone
        cases h
        exact .annotations hclasses hs hnone rfl
      · cases h

/-- What is raised comes from an answer of the cluster. -/
theorem getServices_eq_error {project : String} {limits : Limits} {e : PyError}
    (h : getServices cluster project names authUrl limits = .error e) :
    ClusterRaises cluster project e := by
  unfold getServices at h
  rcases bind_eq_error.mp h with h | ⟨_, -, h⟩
  · unfold getQuotas at h
    rcases bind_eq_error.mp h with h | ⟨objects, hobjects, h⟩
    · exact .quotas h
    · rcases bind_eq_error.mp h with h | ⟨_, -, h⟩
      · obtain ⟨_, o, ho, h⟩ := foldlM_error_mem h
        obtain ⟨s, ⟨hnone, rfl⟩ | ⟨entry, hentry, hvalue⟩⟩ := addQuota_eq_error h
        · exact .status hobjects ho hnone rfl
        · exact .value hobjects ho hentry hvalue
      · cases h
  · rcases bind_eq_error.mp h with h | ⟨_, -, h⟩
    · exact getStorageClasses_eq_error h
    · cases h

theorem int_eq_error {s : String} {e : PyError} (h : Py.int s = .error e) : ∃ m, e = .valueError m := by
  unfold Py.int at h
  dsimp only at h
  split at h
  · cases h
  · exact ⟨_, (Except.error.inj h).symm⟩

theorem valueOf_eq_error {value : String} {e : PyError} (h : valueOf value = .error e) :
    ∃ m, e = .valueError m := by
  unfold valueOf at h
  cases hint : Py.int value with
  | ok n => rw [hint] at h; cases h
  | error e' =>
    obtain ⟨m, rfl⟩ := int_eq_error hint
    rw [hint] at h
    exact int_eq_error h

/-- An error of the API that is raised is the end of one of the requests. -/
theorem apiFails_of_raises {project : String} {e : PyError} (h : ClusterRaises cluster project e)
    (he : e = .maxRetryError ∨ ∃ status body, e = .apiException status body) :
    ApiFails cluster project := by
  cases h with
  | quotas h => exact ⟨e, .inl h, he⟩
  | status _ _ _ hattribute =>
    subst hattribute
    rcases he with he | ⟨_, _, he⟩ <;> cases he
  | value _ _ _ h =>
    obtain ⟨m, rfl⟩ := valueOf_eq_error h
    rcases he with he | ⟨_, _, he⟩ <;> cases he
  | storageClasses h _ => exact ⟨e, .inr h, he⟩
  | annotations _ _ _ hattribute =>
    subst hattribute
    rcases he with he | ⟨_, _, he⟩ <;> cases he

/-- A cluster whose API fails does not answer. -/
theorem not_answering {project : String} (h : ApiFails cluster project) : ¬ Answering cluster project := by
  obtain ⟨e, hfails, he⟩ := h
  rintro ⟨objects, classes, hobjects, hclasses⟩
  rcases hfails with hfails | hfails
  · rw [hobjects] at hfails
    cases hfails
  · rw [hfails] at hclasses
    rcases hclasses with hclasses | ⟨-, m, hclasses⟩
    · cases hclasses
    · cases hclasses
      rcases he with he | ⟨_, _, he⟩ <;> cases he

end

end FRF.Proof
