import Mathlib.Data.List.Induction
import FedRegFeeder.Framework.Except
import FedRegFeeder.Framework.Keyed
import FedRegFeeder.Proof.Merge.Networks

/-!
# A network that several connections report

`get_updated_networks` puts a new network in the place of the current one with
its uuid. Its projects are joined only when both are private, so what is
returned for a network is shared if and only if the last report is: it is
shared when some report is, and has the projects of all reports otherwise, if
and only if no report is shared or the last one is (`mergeNetworks_reports`).
-/

namespace FRF.Spec

open FRF.Impl
open Py (PyError)

/-- The networks of several connections, merged one after the other. -/
def mergeNetworks : List (List Network) → Except PyError (List Network)
  | [] => .ok []
  | first :: rest => rest.foldlM getUpdatedNetworks first

/-- What the lists report on a network, in order. -/
def reports (lists : List (List Network)) (u : String) : List Network :=
  lists.filterMap (·.find? (·.uuid = u))

/-- The network is what all the reports say together. -/
structure Combines (reports : List Network) (n : Network) : Prop where
  shared : (∃ m ∈ reports, m.access.isShared = true) → n.access = .shared
  projects : (∀ m ∈ reports, m.access.isShared = false) → ∃ ps, n.access = .priv ps ∧
    ∀ p, p ∈ ps ↔ ∃ m ∈ reports, p ∈ m.access.projects
  isDefault : n.isDefault = reports.any (·.isDefault)

end FRF.Spec

namespace FRF.Proof

open FRF.Impl FRF.Spec
open Py (PyError)
open Framework

/-! ## One network through a merge -/

/-- A network after the next report on it. -/
def afterReport (o : Option Network) (n : Network) : Option Network := some (o.elim n n.updatedFrom)

theorem find?_map_updatedIn {cur : List Network} {u : String} : ∀ new : List Network,
    (new.map (Network.updatedIn cur)).find? (·.uuid = u) =
      (new.find? (·.uuid = u)).map (Network.updatedIn cur)
  | [] => rfl
  | n :: new => by
    rw [List.map_cons, List.find?_cons, List.find?_cons, Network.uuid_updatedIn,
      find?_map_updatedIn new]
    split <;> rfl

theorem updatedIn_eq {cur : List Network} {n : Network} {u : String} (hu : n.uuid = u) :
    some (Network.updatedIn cur n) = afterReport (cur.find? (·.uuid = u)) n := by
  subst hu
  have hfind : cur.find? (n.uuid = ·.uuid) = cur.find? (·.uuid = n.uuid) := by
    congr 1
    funext c
    simp only [eq_comm]
  rw [Network.updatedIn, hfind, afterReport]
  cases cur.find? (·.uuid = n.uuid) <;> rfl

/-- A merge updates a network by its new report, if there is one. -/
theorem getUpdatedNetworks_find? {cur new : List Network} (hc : (cur.map (·.uuid)).Nodup)
    (hn : (new.map (·.uuid)).Nodup) : ∃ r, getUpdatedNetworks cur new = .ok r ∧
      (r.map (·.uuid)).Nodup ∧ ∀ u, r.find? (·.uuid = u) =
        (new.find? (·.uuid = u)).elim (cur.find? (·.uuid = u))
          (afterReport (cur.find? (·.uuid = u))) := by
  obtain ⟨r, hr, hnodup⟩ := getUpdatedNetworks_nodup hc hn
  refine ⟨r, hr, hnodup, fun u => ?_⟩
  rw [getUpdatedNetworks_eq hc hn] at hr
  cases hr
  rw [List.find?_append, find?_map_updatedIn, List.find?_filter]
  cases hf : new.find? (·.uuid = u) with
  | none =>
    have hno : ∀ n ∈ new, n.uuid ≠ u := fun n hmem => by
      simpa using List.find?_eq_none.mp hf n hmem
    rw [Option.map_none, Option.or_none, Option.elim_none]
    refine congrArg (List.find? · cur) (funext fun c => ?_)
    by_cases hcu : c.uuid = u
    · have hnew : c.uuid ∉ new.map (·.uuid) := fun hmem => by
        obtain ⟨n, hmem, hn⟩ := List.mem_map.mp hmem
        exact hno n hmem (hn.trans hcu)
      simp [hcu, hcu ▸ hnew]
    · simp [hcu]
  | some n =>
    have hnu : n.uuid = u := by simpa using List.find?_some hf
    have hleft : cur.find? (fun c => decide (decide (c.uuid ∉ new.map (·.uuid)) = true ∧
        decide (c.uuid = u) = true)) = none := by
      refine List.find?_eq_none.mpr fun c _ hcu => ?_
      simp only [decide_eq_true_eq] at hcu
      exact hcu.1 (List.mem_map.mpr ⟨n, List.mem_of_find?_eq_some hf, hnu.trans hcu.2.symm⟩)
    rw [hleft, Option.none_or, Option.map_some, Option.elim_some, updatedIn_eq hnu]

/-- What a run of merges makes of a network is what its reports do, one after
the other. -/
theorem foldlM_getUpdatedNetworks_find? :
    ∀ {lists : List (List Network)} {cur : List Network}, (∀ l ∈ lists, (l.map (·.uuid)).Nodup) →
      (cur.map (·.uuid)).Nodup → ∃ r, lists.foldlM getUpdatedNetworks cur = .ok r ∧
        (r.map (·.uuid)).Nodup ∧ ∀ u, r.find? (·.uuid = u) =
          (reports lists u).foldl afterReport (cur.find? (·.uuid = u))
  | [], cur, _, hc => ⟨cur, rfl, hc, fun _ => rfl⟩
  | l :: lists, cur, hd, hc => by
    obtain ⟨hl, hd⟩ := List.forall_mem_cons.mp hd
    obtain ⟨r₁, hr₁, hn₁, hf₁⟩ := getUpdatedNetworks_find? hc hl
    obtain ⟨r, hr, hn, hf⟩ := foldlM_getUpdatedNetworks_find? hd hn₁
    refine ⟨r, foldlM_cons_ok.mpr ⟨r₁, hr₁, hr⟩, hn, fun u => ?_⟩
    rw [hf, hf₁, reports, reports, List.filterMap_cons]
    cases l.find? (·.uuid = u) <;> rfl

theorem mergeNetworks_find? {lists : List (List Network)} (hd : ∀ l ∈ lists, (l.map (·.uuid)).Nodup) :
    ∃ r, mergeNetworks lists = .ok r ∧ (r.map (·.uuid)).Nodup ∧
      ∀ u, r.find? (·.uuid = u) = (reports lists u).foldl afterReport none := by
  cases lists with
  | nil => exact ⟨[], rfl, List.nodup_nil, fun _ => rfl⟩
  | cons first rest =>
    obtain ⟨hfirst, hrest⟩ := List.forall_mem_cons.mp hd
    obtain ⟨r, hr, hn, hf⟩ := foldlM_getUpdatedNetworks_find? hrest hfirst
    refine ⟨r, hr, hn, fun u => ?_⟩
    rw [hf, reports, reports, List.filterMap_cons]
    cases first.find? (·.uuid = u) <;> rfl

/-! ## What the reports say -/

theorem isShared_updatedFrom (n c : Network) :
    (n.updatedFrom c).access.isShared = n.access.isShared := by
  simp only [Network.updatedFrom]
  cases n.access <;> cases c.access <;> rfl

theorem mem_projects_updatedFrom {n c : Network} (hn : n.access.isShared = false)
    (hc : c.access.isShared = false) (p : String) :
    p ∈ (n.updatedFrom c).access.projects ↔ p ∈ c.access.projects ∨ p ∈ n.access.projects := by
  simp only [Network.updatedFrom]
  cases ha : n.access with
  | shared => rw [ha] at hn; cases hn
  | priv new =>
    cases hb : c.access with
    | shared => rw [hb] at hc; cases hc
    | priv curr =>
      rw [or_comm]
      exact Py.mem_setUnion

/-- A network after all its reports: the last one decides whether it is shared. -/
structure AfterReports (reports : List Network) (n : Network) : Prop where
  isShared : ∃ m, reports.getLast? = some m ∧ n.access.isShared = m.access.isShared
  projects : (∀ m ∈ reports, m.access.isShared = false) →
    ∀ p, p ∈ n.access.projects ↔ ∃ m ∈ reports, p ∈ m.access.projects
  isDefault : n.isDefault = reports.any (·.isDefault)

theorem foldl_afterReport {reports : List Network} (hne : reports ≠ []) :
    ∃ n, reports.foldl afterReport none = some n ∧ AfterReports reports n := by
  induction reports using List.reverseRecOn with
  | nil => exact absurd rfl hne
  | append_singleton reports m ih =>
    rw [List.foldl_append, List.foldl_cons, List.foldl_nil]
    by_cases hnil : reports = []
    · subst hnil
      refine ⟨m, rfl, ⟨m, rfl, rfl⟩, fun _ p => ?_, ?_⟩
      · simp
      · simp
    · obtain ⟨n, hn, hafter⟩ := ih hnil
      refine ⟨m.updatedFrom n, by rw [hn]; rfl, ⟨m, List.getLast?_concat, ?_⟩, fun hpriv p => ?_, ?_⟩
      · exact isShared_updatedFrom m n
      · have hreports : ∀ k ∈ reports, k.access.isShared = false := fun k hk =>
          hpriv k (List.mem_append_left _ hk)
        have hm : m.access.isShared = false := hpriv m List.mem_concat_self
        obtain ⟨last, hlast, hshared⟩ := hafter.isShared
        rw [hreports last (List.mem_of_getLast? hlast)] at hshared
        rw [mem_projects_updatedFrom hm hshared, hafter.projects hreports]
        simp only [List.mem_append, List.mem_singleton, or_and_right, exists_or, exists_eq_left]
      · have hd : (m.updatedFrom n).isDefault = (m.isDefault || n.isDefault) := rfl
        rw [hd, hafter.isDefault, List.any_append, Bool.or_comm]
        simp

/-- What is said of a network after its reports is all they say, unless one of
them is shared and the last one is not. -/
theorem combines_iff {reports : List Network} {n : Network} (h : AfterReports reports n) :
    Combines reports n ↔ (∀ m ∈ reports, m.access.isShared = false) ∨
      ∃ m, reports.getLast? = some m ∧ m.access.isShared = true := by
  obtain ⟨last, hlast, hshared⟩ := h.isShared
  have hmem : last ∈ reports := List.mem_of_getLast? hlast
  constructor
  · intro hc
    by_cases hpriv : ∀ m ∈ reports, m.access.isShared = false
    · exact .inl hpriv
    · push Not at hpriv
      obtain ⟨m, hm, hms⟩ := hpriv
      have hn : n.access = .shared := hc.shared ⟨m, hm, by simpa using hms⟩
      exact .inr ⟨last, hlast, by rw [← hshared, hn]; rfl⟩
  · intro hcond
    refine ⟨fun ⟨m, hm, hms⟩ => ?_, fun hpriv => ?_, h.isDefault⟩
    · rcases hcond with hpriv | ⟨last', hlast', hs⟩
      · rw [hpriv m hm] at hms; cases hms
      · rw [hlast] at hlast'
        cases hlast'
        rw [hs] at hshared
        cases ha : n.access with
        | shared => rfl
        | priv ps => rw [ha] at hshared; cases hshared
    · rw [hpriv last hmem] at hshared
      have hp := h.projects hpriv
      cases ha : n.access with
      | shared => rw [ha] at hshared; cases hshared
      | priv ps => exact ⟨ps, rfl, fun p => by rw [← hp p, ha]; rfl⟩

/-- The merged list has one entry for each network that is reported, and it is
what all the reports say exactly when none of them is shared or the last is. -/
theorem mergeNetworks_reports {lists : List (List Network)}
    (hd : ∀ l ∈ lists, (l.map (·.uuid)).Nodup) :
    ∃ r, mergeNetworks lists = .ok r ∧ ∀ u, reports lists u ≠ [] →
      ((∃ n, r.filter (·.uuid = u) = [n] ∧ Combines (reports lists u) n) ↔
        (∀ m ∈ reports lists u, m.access.isShared = false) ∨
          ∃ m, (reports lists u).getLast? = some m ∧ m.access.isShared = true) := by
  obtain ⟨r, hr, hn, hf⟩ := mergeNetworks_find? hd
  refine ⟨r, hr, fun u hu => ?_⟩
  obtain ⟨n, hrun, hafter⟩ := foldl_afterReport hu
  have hone : r.filter (·.uuid = u) = [n] := by
    rw [filter_key_eq hn, hf, hrun]
    rfl
  rw [← combines_iff hafter]
  constructor
  · rintro ⟨n', hn', hc⟩
    rw [hone] at hn'
    cases hn'
    exact hc
  · exact fun hc => ⟨n, hone, hc⟩

/-- A network as a connection reports it. -/
private def net (access : Access) : Network := { uuid := "n", name := "net", access }

theorem mergeNetworks_reports_sample :
    ∃ r, mergeNetworks [[net (.priv ["a"])], [net (.priv ["b"])]] = .ok r ∧
      ∃ n, r.filter (·.uuid = "n") = [n] ∧
        Combines [net (.priv ["a"]), net (.priv ["b"])] n := by
  have hd : ∀ l ∈ [[net (.priv ["a"])], [net (.priv ["b"])]], (l.map (·.uuid)).Nodup := by decide
  obtain ⟨r, hr, h⟩ := mergeNetworks_reports hd
  exact ⟨r, hr, (h "n" (by decide)).mpr (.inl (by decide))⟩

/-- The first connection reports the network as shared, the second one as
private: the registry gets a private network. -/
theorem shared_lost :
    mergeNetworks [[net .shared], [net (.priv ["b"])]] = .ok [net (.priv ["b"])] ∧
      ¬ Combines (reports [[net .shared], [net (.priv ["b"])]] "n") (net (.priv ["b"])) :=
  ⟨rfl, fun h => nomatch h.shared ⟨net .shared, by decide, rfl⟩⟩

end FRF.Proof
