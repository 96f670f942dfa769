import Mathlib.Data.List.Perm.Basic
import FedRegFeeder.Impl.Utils.Merge

/-!
# Merging the networks of a service

`get_updated_networks` walks the new networks while it removes current
networks from the list it returns and appends to it.

* `getUpdatedNetworks_eq`: when the uuids are distinct on each side, it
  succeeds, and returns the current networks without new counterpart and
  then the new networks, each updated from its current counterpart;
* `getUpdatedNetworks_mem`: whatever it returns, the uuids are those of both
  sides;
* `getUpdatedNetworks_forall`: a property of networks that updates keep.
-/

namespace FRF.Proof

open FRF.Impl
open Framework (bind_eq_ok pure_eq_ok foldlM_nil_ok foldlM_cons_ok foldlM_inv)

/-- What one turn of the loop can do. -/
theorem updateNetwork_cases {cur resources r : List Network} {n : Network}
    (h : updateNetwork cur resources n = .ok r) :
    (∃ c ∈ cur, c.uuid = n.uuid ∧ c ∈ resources ∧ r = resources.erase c ++ [n.updatedFrom c]) ∨
    ((∀ c ∈ cur, c.uuid ≠ n.uuid) ∧ r = resources ++ [n]) := by
  simp only [updateNetwork] at h
  split at h
  · rename_i c hc
    obtain ⟨rs, hrs, hr⟩ := bind_eq_ok.mp h
    simp only [Py.remove] at hrs
    split at hrs
    · rename_i hmem
      cases hrs
      refine .inl ⟨c, List.mem_of_find?_eq_some hc, ?_, hmem, (pure_eq_ok.mp hr).symm⟩
      have hu : n.uuid = c.uuid := by simpa using List.find?_some hc
      exact hu.symm
    · cases hrs
  · rename_i hc
    cases h
    refine .inr ⟨fun c hmem e => ?_, rfl⟩
    simpa [e] using List.find?_eq_none.mp hc c hmem

theorem Network.uuid_updatedFrom (n c : Network) : (n.updatedFrom c).uuid = n.uuid := rfl

/-- The uuids after one turn: removing a network leaves every other uuid. -/
theorem updateNetwork_mem {cur resources r : List Network} {n : Network} {u : String}
    (h : updateNetwork cur resources n = .ok r) :
    u ∈ r.map (·.uuid) ↔ u ∈ resources.map (·.uuid) ∨ u = n.uuid := by
  rcases updateNetwork_cases h with ⟨c, -, hu, -, rfl⟩ | ⟨-, rfl⟩
  · simp only [List.map_append, List.map_cons, List.map_nil, List.mem_append, List.mem_singleton,
      Network.uuid_updatedFrom]
    refine or_congr_left' fun hn => ⟨fun h => ?_, fun h => ?_⟩
    · exact List.map_subset _ List.erase_subset h
    · obtain ⟨a, ha, rfl⟩ := List.mem_map.mp h
      exact List.mem_map_of_mem ((List.mem_erase_of_ne (by rintro rfl; exact hn hu)).mpr ha)
  · simp only [List.map_append, List.map_cons, List.map_nil, List.mem_append, List.mem_singleton]

theorem foldlM_updateNetwork_mem {cur : List Network} {u : String} :
    ∀ {new resources r : List Network}, new.foldlM (updateNetwork cur) resources = .ok r →
      (u ∈ r.map (·.uuid) ↔ u ∈ resources.map (·.uuid) ∨ u ∈ new.map (·.uuid))
  | [], _, _, h => by rw [foldlM_nil_ok.mp h]; simp
  | n :: new, _, _, h => by
    obtain ⟨rs, h₁, h₂⟩ := foldlM_cons_ok.mp h
    rw [foldlM_updateNetwork_mem h₂, updateNetwork_mem h₁, List.map_cons, List.mem_cons, or_assoc]

theorem getUpdatedNetworks_mem {cur new r : List Network} (h : getUpdatedNetworks cur new = .ok r)
    (u : String) : u ∈ r.map (·.uuid) ↔ u ∈ cur.map (·.uuid) ∨ u ∈ new.map (·.uuid) :=
  foldlM_updateNetwork_mem h

/-- A property of networks that updates keep. -/
theorem getUpdatedNetworks_forall {P : Network → Prop} {cur new r : List Network}
    (hP : ∀ c n, P c → P n → P (n.updatedFrom c)) (hc : ∀ c ∈ cur, P c) (hn : ∀ n ∈ new, P n)
    (h : getUpdatedNetworks cur new = .ok r) : ∀ n ∈ r, P n := by
  refine foldlM_inv (P := fun l => ∀ n ∈ l, P n) (fun rs n r' hmem hrs h => ?_) hc h
  rcases updateNetwork_cases h with ⟨c, hcur, -, -, rfl⟩ | ⟨-, rfl⟩
  · intro m hm
    rcases List.mem_append.mp hm with hm | hm
    · exact hrs m (List.mem_of_mem_erase hm)
    · exact List.mem_singleton.mp hm ▸ hP c n (hc c hcur) (hn n hmem)
  · intro m hm
    rcases List.mem_append.mp hm with hm | hm
    · exact hrs m hm
    · exact List.mem_singleton.mp hm ▸ hn n hmem

/-! ## Distinct uuids -/

/-- A new network, updated from the current network with its uuid. -/
def Network.updatedIn (cur : List Network) (n : Network) : Network :=
  match cur.find? (n.uuid = ·.uuid) with
  | some c => n.updatedFrom c
  | none => n

theorem Network.uuid_updatedIn (cur : List Network) (n : Network) :
    (Network.updatedIn cur n).uuid = n.uuid := by
  simp only [Network.updatedIn]
  split <;> rfl

/-- The loop, from the point where `kept` is what is left of the current
networks and `done` what was appended: every current network with a uuid that
is still to come is left. -/
theorem foldlM_updateNetwork_eq {cur : List Network} :
    ∀ {new kept done : List Network}, (new.map (·.uuid)).Nodup → (kept.map (·.uuid)).Nodup →
      (∀ c ∈ kept, c ∈ cur) → (∀ c ∈ cur, c.uuid ∈ new.map (·.uuid) → c ∈ kept) →
      new.foldlM (updateNetwork cur) (kept ++ done) =
        .ok (kept.filter (·.uuid ∉ new.map (·.uuid)) ++ (done ++ new.map (Network.updatedIn cur)))
  | [], kept, done, _, _, _, _ => by simp [List.filter_eq_self.mpr]; rfl
  | n :: new, kept, done, hnew, hkept, hsub, hleft => by
    obtain ⟨hn, hnew⟩ := List.nodup_cons.mp hnew
    have hstep : updateNetwork cur (kept ++ done) n =
        .ok (kept.filter (·.uuid ≠ n.uuid) ++ (done ++ [Network.updatedIn cur n])) := by
      cases hc : cur.find? (n.uuid = ·.uuid) with
      | some c =>
        have hu : n.uuid = c.uuid := by simpa using List.find?_some hc
        have hk : c ∈ kept := hleft c (List.mem_of_find?_eq_some hc)
          (List.mem_map.mpr ⟨n, List.mem_cons_self, hu⟩)
        have herase : kept.erase c = kept.filter (·.uuid ≠ n.uuid) := by
          rw [(List.Nodup.of_map _ hkept).erase_eq_filter c]
          refine List.filter_congr fun a ha => ?_
          have hinj : a.uuid = c.uuid → a = c := List.inj_on_of_nodup_map hkept ha hk
          refine Bool.eq_iff_iff.mpr ?_
          rw [bne_iff_ne, decide_eq_true_iff, hu]
          exact ⟨fun h e => h (hinj e), fun h e => h (e ▸ rfl)⟩
        simp only [updateNetwork, Network.updatedIn, hc, Py.remove, List.mem_append, hk, true_or,
          ite_true, List.erase_append_left _ hk, herase]
        simp only [Bind.bind, Except.bind, pure, Except.pure, List.append_assoc]
      | none =>
        have hno : ∀ a ∈ kept, a.uuid ≠ n.uuid := fun a ha e => by
          simpa [e] using List.find?_eq_none.mp hc a (hsub a ha)
        rw [List.filter_eq_self.mpr (fun a ha => by simpa using hno a ha)]
        simp only [updateNetwork, Network.updatedIn, hc, List.append_assoc]
    rw [List.foldlM_cons, hstep]
    refine (foldlM_updateNetwork_eq hnew ?_ ?_ ?_).trans ?_
    · exact hkept.sublist (List.filter_sublist.map _)
    · exact fun c hc => hsub c (List.mem_of_mem_filter hc)
    · intro c hc hcn
      refine List.mem_filter.mpr ⟨hleft c hc (List.mem_cons_of_mem _ hcn), ?_⟩
      have : c.uuid ≠ n.uuid := fun e => hn (by rwa [e] at hcn)
      simpa using this
    · simp only [List.filter_filter, List.map_cons, List.mem_cons, List.append_assoc,
        List.singleton_append, not_or, Bool.decide_and, decide_not, ne_eq, Bool.and_comm]

theorem getUpdatedNetworks_eq {cur new : List Network} (hc : (cur.map (·.uuid)).Nodup)
    (hn : (new.map (·.uuid)).Nodup) :
    getUpdatedNetworks cur new =
      .ok (cur.filter (·.uuid ∉ new.map (·.uuid)) ++ new.map (Network.updatedIn cur)) := by
  have := @foldlM_updateNetwork_eq cur new cur [] hn hc (fun _ h => h) (fun _ h _ => h)
  rw [List.append_nil, List.nil_append] at this
  exact this

/-- Distinct uuids stay distinct. -/
theorem getUpdatedNetworks_nodup {cur new : List Network} (hc : (cur.map (·.uuid)).Nodup)
    (hn : (new.map (·.uuid)).Nodup) :
    ∃ r, getUpdatedNetworks cur new = .ok r ∧ (r.map (·.uuid)).Nodup := by
  refine ⟨_, getUpdatedNetworks_eq hc hn, ?_⟩
  rw [List.map_append, List.map_map]
  have hmap : new.map ((·.uuid) ∘ Network.updatedIn cur) = new.map (·.uuid) :=
    List.map_congr_left fun n _ => Network.uuid_updatedIn cur n
  rw [hmap, List.nodup_append]
  refine ⟨hc.sublist (List.filter_sublist.map _), hn, fun a ha b hb e => ?_⟩
  obtain ⟨c, hcf, rfl⟩ := List.mem_map.mp ha
  have := List.of_mem_filter hcf
  simp only [decide_eq_true_eq] at this
  exact this (e ▸ hb)

end FRF.Proof
