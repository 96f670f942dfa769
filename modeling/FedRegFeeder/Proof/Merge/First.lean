import FedRegFeeder.Framework.First
import FedRegFeeder.Proof.Merge.Components

/-!
# What the first sibling reports

Where `update_service` keeps what a service has and takes over of a new
service only what it has not, the merged service is told by the first sibling
that reports something (`found_merge`). What services report is a list, and
two reports are multiplied by taking the first that is not empty
(`Framework.First`).
-/

namespace FRF.Spec

open FRF.Impl
open Framework (First)

variable {α : Type} {k : ServiceKind}

/-- What the services of a kind at the endpoint `e` of the region `n` report. -/
def found (report : k.Class → First α) (regions : List RegionCreateExtended) (n e : String) :
    List α :=
  (regions.filter (·.name = n)).flatMap fun r =>
    ((services r k).filter (Service.endpoint · = e)).flatMap fun s => (report s).toList

end FRF.Spec

namespace FRF.Proof

open FRF.Impl FRF.Spec
open Py (PyError)
open Framework

section
variable {α : Type} {k : ServiceKind} {report : k.Class → First α}

/-- The product of the reports at an endpoint of a region. -/
def regionReport (report : k.Class → First α) (e : String) (r : RegionCreateExtended) : First α :=
  (((services r k).filter (Service.endpoint · = e)).map report).prod

theorem regionReport_updateRegion
    (hw : ∀ c n s : k.Class, Service.updateService c n = .ok s → report s = report c * report n)
    {e : String} {c n r : RegionCreateExtended}
    (hc : ((services c k).map Service.endpoint).Nodup) (h : updateRegion c n = .ok r) :
    ((services r k).map Service.endpoint).Nodup ∧
      regionReport report e r = regionReport report e c * regionReport report e n := by
  have hs := (updateRegion_eq_ok.mp h).2 k
  refine ⟨mergeAll_nodup keepsKey_service hc hs, ?_⟩
  exact mergeAll_prod (P := fun _ => True) (Q := fun _ => True) keepsKey_service
    (fun c n s _ _ _ h => ⟨trivial, hw c n s h⟩) (fun _ h => h) hc
    (fun _ _ => trivial) (fun _ _ => trivial) hs e

/-- In regions whose keys are distinct, what is found is the product of the
reports. -/
theorem found_eq_prod {regions : List RegionCreateExtended} (hr : (regions.map (·.name)).Nodup)
    (hs : ∀ r ∈ regions, ((services r k).map Service.endpoint).Nodup) (n e : String) :
    found report regions n e =
      ((regions.filter (·.name = n)).map (regionReport report e)).prod.toList := by
  rw [← First.flatMap_eq_prod _ (length_filter_key_le hr n)]
  refine List.flatMap_congr fun r hmem => ?_
  exact First.flatMap_eq_prod report
    (length_filter_key_le (hs r (List.mem_of_mem_filter hmem)) e)

/-- What is found in merged regions is what is found in the first sibling that
reports something. -/
theorem found_merge (report : k.Class → First α)
    (hw : ∀ c n s : k.Class, Service.updateService c n = .ok s → report s = report c * report n)
    {siblings : List Sibling} {rs : List RegionCreateExtended}
    (hd : ∀ s ∈ siblings, ((services s.2.2 k).map Service.endpoint).Nodup)
    (hr : mergeAll (fun r : RegionCreateExtended => r.name) updateRegion []
      (siblings.map (·.2.2)) = .ok rs) (n e : String) :
    found report rs n e =
      (siblings.find? fun s => !(found report [s.2.2] n e).isEmpty).elim [] fun s =>
        found report [s.2.2] n e := by
  have hrs : ∀ r ∈ rs, ((services r k).map Service.endpoint).Nodup :=
    mergeAll_map_forall (fun _ _ _ _ hc _ h => mergeAll_nodup keepsKey_service hc
      ((updateRegion_eq_ok.mp h).2 k)) hd hr
  have hprod : ((rs.filter (·.name = n)).map (regionReport report e)).prod =
      (siblings.map fun s => (([s.2.2].filter (·.name = n)).map (regionReport report e)).prod).prod := by
    rw [← prod_filter_map]
    exact mergeAll_empty_prod keepsKey_region
      (fun _ _ _ _ hc _ h => regionReport_updateRegion hw hc h) (fun _ h => h)
      (List.forall_mem_map.mpr hd) hr n
  have hsibling : ∀ s ∈ siblings, found report [s.2.2] n e =
      (([s.2.2].filter (·.name = n)).map (regionReport report e)).prod.toList := fun s hs => by
    have hname : ([s.2.2].map (·.name)).Nodup := List.nodup_singleton s.2.2.name
    exact found_eq_prod hname (List.forall_mem_singleton.mpr (hd s hs)) n e
  rw [found_eq_prod (mergeAll_empty_nodup keepsKey_region hr) hrs, hprod, First.toList_prod,
    List.map_map, show siblings.map (First.toList ∘ _) = _ from
      (List.map_congr_left hsibling).symm, List.find?_map]
  show (Option.map _ (siblings.find? fun s => !(found report [s.2.2] n e).isEmpty)).getD [] = _
  cases siblings.find? fun s => !(found report [s.2.2] n e).isEmpty <;> rfl

end

end FRF.Proof
