import FedRegFeeder.Proof.Merge.Networks
import FedRegFeeder.Spec.Components

/-!
# Merging the services of a region

The services of each kind are merged by endpoint, by `update_service`:

* `updateService_uuids`: the uuids of an updated service are those of both;
* `quotasOf_getUpdatedServices`: the quotas at each endpoint add up;
* `updateService_total`, `updateRegion_total`: services and regions whose
  uuids are distinct (`DistinctUuids`) are merged without error, and stay so;
* `updateRegion_eq_ok`: a region is merged kind by kind.
-/

namespace FRF.Proof

open FRF.Impl FRF.Spec
open Py (PyError)
open Framework

theorem keepsKey_service {σ : Type} [Service σ] :
    KeepsKey (@Service.endpoint σ _) Service.updateService :=
  fun _ _ _ _ h => Service.endpoint_updateService h

/-! ## Resources -/

section
variable {ρ : Type} [Resource ρ]

theorem getUpdatedResources_mem (cur new : List ρ) (u : String) :
    u ∈ (getUpdatedResources cur new).map Resource.uuid ↔
      u ∈ cur.map Resource.uuid ∨ u ∈ new.map Resource.uuid := by
  simp only [getUpdatedResources, List.map_append, List.mem_append]
  refine or_congr_right' fun hu => ⟨fun h => ?_, fun h => ?_⟩
  · exact (List.filter_sublist.map _).subset h
  · obtain ⟨a, ha, rfl⟩ := List.mem_map.mp h
    exact List.mem_map_of_mem (List.mem_filter.mpr ⟨ha, by simpa using hu⟩)

theorem getUpdatedResources_nodup {cur new : List ρ} (hc : (cur.map Resource.uuid).Nodup)
    (hn : (new.map Resource.uuid).Nodup) :
    ((getUpdatedResources cur new).map Resource.uuid).Nodup := by
  rw [getUpdatedResources, List.map_append, List.nodup_append]
  refine ⟨hc, hn.sublist (List.filter_sublist.map _), fun a ha b hb e => ?_⟩
  obtain ⟨x, hx, rfl⟩ := List.mem_map.mp hb
  have hno := List.of_mem_filter hx
  rw [decide_eq_true_eq, ← e] at hno
  exact hno ha

end

/-! ## Services -/

/-- The uuids of a service's resources are distinct. -/
def DistinctUuids : (k : ServiceKind) → k.Class → Prop
  | .compute, s => (s.flavors.map (·.uuid)).Nodup ∧ (s.images.map (·.uuid)).Nodup
  | .network, s => (s.networks.map (·.uuid)).Nodup
  | .blockStorage, _ | .identity, _ | .objectStore, _ => True

theorem nodup_uuids {k : ResourceKind} {s : k.service.Class} (h : DistinctUuids k.service s) :
    (uuids k s).Nodup := by
  cases k
  · exact h.1
  · exact h.2
  · exact h

theorem distinctUuids_of_nodup {r : RegionCreateExtended}
    (h : ∀ k : ResourceKind, ∀ s ∈ services r k.service, (uuids k s).Nodup) :
    ∀ k, ∀ s ∈ services r k, DistinctUuids k s
  | .compute => fun s hs => ⟨h .flavor s hs, h .image s hs⟩
  | .network => fun s hs => h .network s hs
  | .blockStorage | .identity | .objectStore => fun _ _ => trivial

theorem updateService_uuids {k : ResourceKind} {c n s : k.service.Class}
    (h : Service.updateService c n = .ok s) (u : String) :
    u ∈ uuids k s ↔ u ∈ uuids k c ∨ u ∈ uuids k n := by
  cases k with
  | flavor => cases h; exact getUpdatedResources_mem _ _ u
  | image => cases h; exact getUpdatedResources_mem _ _ u
  | network =>
    obtain ⟨networks, hn, rfl⟩ := NetworkServiceCreateExtended.update_eq_ok.mp h
    exact getUpdatedNetworks_mem hn u

/-- Services whose uuids are distinct are merged without error, and the
service they are merged into has distinct uuids too. -/
theorem updateService_total {k : ServiceKind} {c n : k.Class} (hc : DistinctUuids k c)
    (hn : DistinctUuids k n) : ∃ s, Service.updateService c n = .ok s ∧ DistinctUuids k s := by
  cases k with
  | compute =>
    exact ⟨_, rfl, getUpdatedResources_nodup hc.1 hn.1, getUpdatedResources_nodup hc.2 hn.2⟩
  | network =>
    obtain ⟨networks, hr, hd⟩ := getUpdatedNetworks_nodup hc hn
    exact ⟨_, NetworkServiceCreateExtended.update_eq_ok.mpr ⟨networks, hr, rfl⟩, hd⟩
  | blockStorage => exact ⟨_, rfl, trivial⟩
  | identity => exact ⟨_, rfl, trivial⟩
  | objectStore => exact ⟨_, rfl, trivial⟩

theorem getUpdatedServices_total {k : ServiceKind} {cur new : List k.Class}
    (hc : ∀ s ∈ cur, DistinctUuids k s) (hn : ∀ s ∈ new, DistinctUuids k s) :
    ∃ r, getUpdatedServices cur new = .ok r ∧ ∀ s ∈ r, DistinctUuids k s :=
  mergeAll_total (fun _ _ _ hc hn => updateService_total hc hn) hc hn

section
variable {σ : Type} [Service σ] {cur new r : List σ}

theorem getUpdatedServices_endpoints (h : getUpdatedServices cur new = .ok r) (e : String) :
    (∃ s ∈ r, Service.endpoint s = e) ↔
      (∃ s ∈ cur, Service.endpoint s = e) ∨ ∃ s ∈ new, Service.endpoint s = e := by
  refine mergeAll_exists (fun c x _ s hk hs => ?_) h
  rw [Service.endpoint_updateService hs, hk, or_self]

theorem quotasOf_getUpdatedServices (h : getUpdatedServices cur new = .ok r) (e : String) :
    quotasOf r e = quotasOf cur e + quotasOf new e := by
  refine mergeAll_sum (fun c x s hk hs => ?_) h
  rw [Service.endpoint_updateService hs, Service.quotas_updateService hs, hk]
  split
  · rfl
  · rw [add_zero]

end

theorem getUpdatedServices_uuids {k : ResourceKind} {cur new r : List k.service.Class}
    (h : getUpdatedServices cur new = .ok r) (e u : String) :
    (∃ s ∈ r, Service.endpoint s = e ∧ u ∈ uuids k s) ↔
      (∃ s ∈ cur, Service.endpoint s = e ∧ u ∈ uuids k s) ∨
        ∃ s ∈ new, Service.endpoint s = e ∧ u ∈ uuids k s := by
  refine mergeAll_exists (fun c x _ s hk hs => ?_) h
  rw [Service.endpoint_updateService hs, updateService_uuids hs, hk, and_or_left]

/-! ## Regions -/

/-- A region is merged kind by kind, and keeps its own attributes. -/
theorem updateRegion_eq_ok {c n r : RegionCreateExtended} :
    updateRegion c n = .ok r ↔ r.toRegion = c.toRegion ∧
      ∀ k, getUpdatedServices (services c k) (services n k) = .ok (services r k) := by
  simp only [updateRegion, bind_eq_ok, pure_eq_ok]
  constructor
  · rintro ⟨bs, hbs, cs, hcs, is, his, ns, hns, os, hos, rfl⟩
    exact ⟨rfl, fun k => by cases k <;> assumption⟩
  · rintro ⟨hr, h⟩
    refine ⟨_, h .blockStorage, _, h .compute, _, h .identity, _, h .network, _, h .objectStore, ?_⟩
    rw [← hr]
    rfl

theorem updateRegion_name {c n r : RegionCreateExtended} (h : updateRegion c n = .ok r) :
    r.name = c.name :=
  congrArg Region.name (updateRegion_eq_ok.mp h).1

theorem keepsKey_region : KeepsKey (fun r : RegionCreateExtended => r.name) updateRegion :=
  fun _ _ _ _ => updateRegion_name

/-- A region of given attributes and services. -/
theorem region_of_services (c : RegionCreateExtended) (f : (k : ServiceKind) → List k.Class) :
    ∃ r : RegionCreateExtended, r.toRegion = c.toRegion ∧ ∀ k, services r k = f k :=
  ⟨{ c with
      blockStorageServices := f .blockStorage
      computeServices := f .compute
      identityServices := f .identity
      networkServices := f .network
      objectStoreServices := f .objectStore }, rfl, fun k => by cases k <;> rfl⟩

/-- Regions whose services have distinct uuids are merged without error. -/
theorem updateRegion_total {c n : RegionCreateExtended}
    (hc : ∀ k, ∀ s ∈ services c k, DistinctUuids k s)
    (hn : ∀ k, ∀ s ∈ services n k, DistinctUuids k s) :
    ∃ r, updateRegion c n = .ok r ∧ ∀ k, ∀ s ∈ services r k, DistinctUuids k s := by
  choose f hf hd using fun k => getUpdatedServices_total (hc k) (hn k)
  obtain ⟨r, hr, hs⟩ := region_of_services c f
  exact ⟨r, updateRegion_eq_ok.mpr ⟨hr, fun k => (hf k).trans (by rw [hs k])⟩,
    fun k => by rw [hs k]; exact hd k⟩

/-- A property of services that updates keep. -/
theorem updateRegion_forall {P : (k : ServiceKind) → k.Class → Prop}
    (hP : ∀ k c n s, P k c → P k n → Service.updateService c n = .ok s → P k s)
    {c n r : RegionCreateExtended} (hc : ∀ k, ∀ s ∈ services c k, P k s)
    (hn : ∀ k, ∀ s ∈ services n k, P k s) (h : updateRegion c n = .ok r) (k : ServiceKind) :
    ∀ s ∈ services r k, P k s :=
  mergeAll_forall (fun c n s _ => hP k c n s) (hc k) (hn k) ((updateRegion_eq_ok.mp h).2 k)

end FRF.Proof
