import FedRegFeeder.Proof.Merge.First

/-!
# The storage classes of a merged service

`update_service` joins the quotas of two block storage services and leaves the
storage classes of the new one out. So a merged service has those of the first
sibling that reports it (`storageClassesAt_mergeComponents`), and the storage
classes that any sibling reports, each once, if and only if this sibling
reports all of them (`mergeComponents_storageClasses`).
-/

namespace FRF.Spec

open FRF.Impl

/-- The names of the storage classes of each block storage service at the
endpoint `e` of the region `n`. -/
def Components.storageClassesAt (c : Components) (n e : String) : List (List String) :=
  (c.2.2.filter (·.name = n)).flatMap fun r =>
    (r.blockStorageServices.filter (·.endpoint = e)).flatMap fun s =>
      [s.storageClasses.map (·.name)]

/-- The first sibling that reports a block storage service. -/
def firstStorage (siblings : List Sibling) (n e : String) : Option Sibling :=
  siblings.find? fun s => !((components s).storageClassesAt n e).isEmpty

/-- The names at an endpoint are those that the siblings report, each once. -/
structure JoinsStorageClasses (siblings : List Sibling) (c : Components) (n e : String) : Prop where
  nodup : (c.storageClassesAt n e).flatten.Nodup
  union : ∀ name, name ∈ (c.storageClassesAt n e).flatten ↔
    ∃ s ∈ siblings, name ∈ ((components s).storageClassesAt n e).flatten

end FRF.Spec

namespace FRF.Proof

open FRF.Impl FRF.Spec
open Framework

/-- The report a block storage service makes of its storage classes. -/
def storageReport (s : BlockStorageServiceCreateExtended) : First (List String) :=
  ⟨[s.storageClasses.map (·.name)]⟩

/-- An updated service reports what it did before. -/
theorem storageReport_updateService {c n s : BlockStorageServiceCreateExtended}
    (h : Service.updateService c n = .ok s) :
    storageReport s = storageReport c * storageReport n := by
  have hne : (storageReport c).toList ≠ [] := List.cons_ne_nil _ _
  cases h
  rw [First.mul_def, if_neg hne]
  rfl

theorem found_storageReport_filterRegion (projects : List String) (rs : List RegionCreateExtended)
    (n e : String) :
    found (k := .blockStorage) storageReport (rs.map (filterRegion projects)) n e =
      found (k := .blockStorage) storageReport rs n e := by
  simp only [found, List.filter_map, List.flatMap_map]
  rfl

/-- A merged service has the storage classes of the first sibling that reports
it. -/
theorem storageClassesAt_mergeComponents {siblings : List Sibling} {c : Components}
    (hd : ∀ s ∈ siblings, (s.2.2.blockStorageServices.map (·.endpoint)).Nodup)
    (h : mergeComponents siblings = .ok c) (n e : String) :
    c.storageClassesAt n e =
      (firstStorage siblings n e).elim [] fun s => (components s).storageClassesAt n e := by
  obtain ⟨idps, projects, filtered⟩ := c
  obtain ⟨-, -, rs, hr, rfl⟩ := mergeComponents_eq_ok.mp h
  have hfound := found_merge (k := .blockStorage) storageReport
    (fun _ _ _ => storageReport_updateService) hd hr n e
  rw [← found_storageReport_filterRegion (projects.map (·.uuid))] at hfound
  exact hfound

/-- At an endpoint of a region there are the storage classes that any sibling
reports, each once, exactly when the first sibling that reports the service
reports them all, each once. -/
theorem mergeComponents_storageClasses {siblings : List Sibling} {c : Components}
    (hd : ∀ s ∈ siblings, (s.2.2.blockStorageServices.map (·.endpoint)).Nodup)
    (h : mergeComponents siblings = .ok c) (n e : String) :
    JoinsStorageClasses siblings c n e ↔ ∀ first, firstStorage siblings n e = some first →
      ((components first).storageClassesAt n e).flatten.Nodup ∧
        ∀ s ∈ siblings, ∀ name ∈ ((components s).storageClassesAt n e).flatten,
          name ∈ ((components first).storageClassesAt n e).flatten := by
  have hmerged := storageClassesAt_mergeComponents hd h n e
  constructor
  · rintro ⟨hnodup, hunion⟩ first hfirst
    rw [hfirst, Option.elim_some] at hmerged
    rw [hmerged] at hnodup hunion
    exact ⟨hnodup, fun s hs name hname => (hunion name).mpr ⟨s, hs, hname⟩⟩
  · intro hall
    cases hfirst : firstStorage siblings n e with
    | none =>
      rw [hfirst, Option.elim_none] at hmerged
      have hno : ∀ s ∈ siblings, (components s).storageClassesAt n e = [] := fun s hs => by
        simpa using List.find?_eq_none.mp hfirst s hs
      refine ⟨by rw [hmerged]; exact List.nodup_nil, fun name => ?_⟩
      rw [hmerged]
      refine iff_of_false (List.not_mem_nil) fun ⟨s, hs, hname⟩ => ?_
      rw [hno s hs] at hname
      cases hname
    | some first =>
      rw [hfirst, Option.elim_some] at hmerged
      obtain ⟨hnodup, hcond⟩ := hall first hfirst
      refine ⟨by rw [hmerged]; exact hnodup, fun name => ?_⟩
      rw [hmerged]
      exact ⟨fun hname => ⟨first, List.mem_of_find?_eq_some hfirst, hname⟩,
        fun ⟨s, hs, hname⟩ => hcond s hs name hname⟩

/-- What a connection to a cluster contributes when it lists the storage
classes `classes`. -/
private def clusterSibling (project : String) (classes : List String) : Sibling :=
  ({ endpoint := "https://iam.cloud.infn.it", groupClaim := "groups"
     relationship := { endpoint := "https://iam.cloud.infn.it" }
     userGroups := [{ name := project ++ "-users", sla :=
       { docUuid := project ++ "-sla", startDate := "2024-01-01", endDate := "2025-01-01"
         project } }] },
   { uuid := project, name := project },
   { name := "default", overbookingCpu := 1, overbookingRam := 1, bandwidthIn := 10, bandwidthOut := 10
     blockStorageServices := [{ endpoint := "https://k8s.test.it", name := .kubernetes
                                storageClasses := classes.map fun name =>
                                  { name, provisioner := "nfs" } }] })

theorem clusterSibling_distinct (project : String) (classes : List String) (k : ServiceKind) :
    ∀ svc ∈ services (clusterSibling project classes).2.2 k, DistinctUuids k svc := by
  cases k with
  | blockStorage | identity | objectStore => exact fun _ _ => trivial
  | compute | network => exact List.forall_mem_nil _

theorem clusterSiblings_merge (first second : List String) : ∃ c,
    mergeComponents [clusterSibling "cms" first, clusterSibling "atlas" second] = .ok c :=
  mergeComponents_total
    (List.forall_mem_cons.mpr ⟨⟨_, rfl⟩, List.forall_mem_singleton.mpr ⟨_, rfl⟩⟩)
    (List.forall_mem_cons.mpr ⟨clusterSibling_distinct _ _,
      List.forall_mem_singleton.mpr (clusterSibling_distinct _ _)⟩)

theorem clusterSiblings_endpoints (first second : List String) :
    ∀ s ∈ [clusterSibling "cms" first, clusterSibling "atlas" second],
      (s.2.2.blockStorageServices.map (·.endpoint)).Nodup :=
  List.forall_mem_cons.mpr ⟨List.nodup_singleton _,
    List.forall_mem_singleton.mpr (List.nodup_singleton _)⟩

theorem mergeComponents_storageClasses_sample : ∃ c,
    mergeComponents [clusterSibling "cms" ["nfs"], clusterSibling "atlas" ["nfs"]] = .ok c ∧
    JoinsStorageClasses [clusterSibling "cms" ["nfs"], clusterSibling "atlas" ["nfs"]] c
      "default" "https://k8s.test.it" := by
  obtain ⟨c, h⟩ := clusterSiblings_merge ["nfs"] ["nfs"]
  refine ⟨c, h, (mergeComponents_storageClasses (clusterSiblings_endpoints _ _) h _ _).mpr ?_⟩
  intro first hfirst
  have heq : firstStorage [clusterSibling "cms" ["nfs"], clusterSibling "atlas" ["nfs"]]
      "default" "https://k8s.test.it" = some (clusterSibling "cms" ["nfs"]) := rfl
  rw [heq] at hfirst
  cases hfirst
  decide

/-- The first connection reports no storage class, since listing them failed:
what the second one reports is lost. -/
theorem storageClass_lost : ∃ c,
    mergeComponents [clusterSibling "cms" [], clusterSibling "atlas" ["nfs"]] = .ok c ∧
    Components.storageClassesAt c "default" "https://k8s.test.it" = [[]] ∧
    ¬ JoinsStorageClasses [clusterSibling "cms" [], clusterSibling "atlas" ["nfs"]] c
      "default" "https://k8s.test.it" := by
  obtain ⟨c, h⟩ := clusterSiblings_merge [] ["nfs"]
  have hmerged : Components.storageClassesAt c "default" "https://k8s.test.it" = [[]] :=
    storageClassesAt_mergeComponents (clusterSiblings_endpoints _ _) h _ _
  refine ⟨c, h, hmerged, fun ⟨_, hunion⟩ => ?_⟩
  have hmem : clusterSibling "atlas" ["nfs"] ∈
      [clusterSibling "cms" [], clusterSibling "atlas" ["nfs"]] := by simp
  have hnfs := (hunion "nfs").mpr ⟨_, hmem, by decide⟩
  rw [hmerged] at hnfs
  revert hnfs
  decide

end FRF.Proof
