import FedRegFeeder.Framework.Keyed
import FedRegFeeder.Proof.Requests

/-!
# Updating the registry

When every request succeeds, `update_database` reads the stored providers and
then sends one write request for each item (`updateDatabase_run`). It looks a
stored provider up by name alone, in a dictionary that keeps the last of each
name, and removes it from there. So the requests are those its docstring asks
for, an update of the stored provider with the name and the type of the item,
if and only if each item that is stored is the first of its name and its
stored provider the last of its name (`updateDatabase_updates`).
-/

namespace FRF.Spec

open FRF.Impl

/-- The stored provider with the name and the type of an item. -/
def counterpart (stored : List ProviderRead) (item : ProviderCreateExtended) :
    Option ProviderRead :=
  stored.find? fun i => i.name = item.name ∧ i.type = item.type

/-- The request that updates the registry with an item. -/
def expectedWrite (stored : List ProviderRead) (item : ProviderCreateExtended) : Request :=
  (counterpart stored item).elim (.post item) (.put · item)

def putsTo (i : ProviderRead) : Request → Bool
  | .put oldData _ => oldData = i
  | .get | .post _ | .delete _ => false

/-- The requests update the stored providers with the items: one write request
for each item, in order, no two updates of a stored provider, and no removal. -/
structure UpdatesEach (stored : List ProviderRead) (items : List ProviderCreateExtended)
    (requests : List Request) : Prop where
  writes : requests = .get :: items.map (expectedWrite stored)
  puts : ∀ i ∈ stored, requests.countP (putsTo i) ≤ 1
  noDelete : ∀ i, .delete i ∉ requests

/-- Every request succeeds, and the registry stores the given providers. -/
structure Succeeds (registry : Registry) (stored : List ProviderRead) : Prop where
  get : ∀ n m, m.method = .get →
    ∃ r, registry n m = .ok r ∧ r.status = 200 ∧ r.providers = .ok stored
  post : ∀ n m, m.method = .post → ∃ r, registry n m = .ok r ∧ r.status = 201 ∧
    ∃ p, r.provider = .ok p
  put : ∀ n m, m.method = .put → ∃ r, registry n m = .ok r ∧
    ((r.status = 200 ∧ ∃ p, r.provider = .ok p) ∨ r.status = 304)

/-- The first item of its name. -/
def FirstOfName (items : List ProviderCreateExtended) (x : ProviderCreateExtended) : Prop :=
  items.find? (·.name = x.name) = some x

/-- The last stored provider of its name. -/
def LastOfName (stored : List ProviderRead) (i : ProviderRead) : Prop :=
  stored.reverse.find? (·.name = i.name) = some i

end FRF.Spec

namespace FRF.Proof

open FRF.Impl FRF.Spec
open Py (PyError)
open Framework Session

/-! ## A run in which every request succeeds -/

section
variable {registry : Registry} {stored : List ProviderRead} (hr : Succeeds registry stored)

include hr

theorem wellFormed_of_succeeds : WellFormed registry where
  providers n m r ha hm _ := by
    obtain ⟨r', hr', -, hstored⟩ := hr.get n m hm
    rw [ha] at hr'
    cases hr'
    exact ⟨_, hstored⟩
  created n m r ha hm _ := by
    obtain ⟨r', hr', -, hp⟩ := hr.post n m hm
    rw [ha] at hr'
    cases hr'
    exact hp
  updated n m r ha hm h200 := by
    obtain ⟨r', hr', ⟨-, hp⟩ | h304⟩ := hr.put n m hm <;> rw [ha] at hr' <;> cases hr'
    · exact hp
    · omega
  json n m r ha hm h422 := by
    rcases hm with hm | hm
    · obtain ⟨r', hr', h201, -⟩ := hr.post n m hm
      rw [ha] at hr'
      cases hr'
      omega
    · obtain ⟨r', hr', ⟨h200, -⟩ | h304⟩ := hr.put n m hm <;> rw [ha] at hr' <;> cases hr' <;> omega

/-- No write request raises, or records an error. -/
theorem effect_of_succeeds (crud : CRUD) (items : List ProviderCreateExtended) :
    ∀ x ∈ exchanged registry crud stored items, effect x = .ok false := by
  rintro ⟨q, o⟩ hx
  obtain ⟨hq, n, ho⟩ := mem_exchanges hx
  simp only at hq ho
  rcases mem_writes hq with ⟨item, rfl⟩ | ⟨i, item, rfl⟩
  · obtain ⟨r, ha, h201, -⟩ := hr.post n (crud.message (.post item)) rfl
    rw [ho, answerTo, ha, effect, Request.succeeded, if_pos (by simp [h201])]
  · obtain ⟨r, ha, ⟨h200, -⟩ | h304⟩ := hr.put n (crud.message (.put i item)) rfl
    · rw [ho, answerTo, ha, effect, Request.succeeded, if_pos (by simp [h200])]
    · rw [ho, answerTo, ha, effect, Request.succeeded, if_pos (by simp [h304])]

/-- What `update_database` returns, and what it sends. -/
theorem updateDatabase_run {token : String} (ht : token ≠ "") (url : String)
    (items : List ProviderCreateExtended) (timeout : Int) :
    updateDatabase registry url items token timeout {} =
      (.ok true, ⟨false, .get :: writes stored items⟩) := by
  have hrs := mapM_eq_map (effect_of_succeeds hr (client url token timeout) items)
  have hitems := updateItems_ok (wellFormed_of_succeeds hr) (hr.get 0 _ rfl) hrs
  have hany : ∀ l : List (Request × Except PyError Response), (l.map fun _ => false).any id = false :=
    fun l => by simp
  rw [hany] at hitems
  exact updateDatabase_ok ht url timeout hitems

end

/-! ## When the requests are those expected -/

section
variable {stored : List ProviderRead}

/-- Everything in the dictionary is stored, under its name. -/
def Holds (stored : List ProviderRead) (d : Dict String ProviderRead) : Prop :=
  ∀ n i, d.get? n = some i → i ∈ stored ∧ i.name = n

theorem Holds.erase {d : Dict String ProviderRead} (h : Holds stored d) (n : String) :
    Holds stored (d.erase n) := by
  intro n' i hi
  rw [Dict.get?_erase] at hi
  split at hi
  · cases hi
  · exact h n' i hi

theorem get?_ofStored (n : String) :
    (Dict.ofList (stored.map fun i => (i.name, i))).get? n = stored.reverse.find? (·.name = n) := by
  rw [Dict.get?_ofList, ← List.map_reverse, List.find?_map, Option.map_map]
  exact Option.map_id'

theorem holds_ofStored : Holds stored (Dict.ofList (stored.map fun i => (i.name, i))) := by
  intro n i hi
  rw [get?_ofStored] at hi
  exact ⟨List.mem_reverse.mp (List.mem_of_find?_eq_some hi), by simpa using List.find?_some hi⟩

theorem counterpart_eq_some (hs : (stored.map fun i => (i.name, i.type)).Nodup)
    {x : ProviderCreateExtended} {i : ProviderRead} :
    counterpart stored x = some i ↔ i ∈ stored ∧ i.name = x.name ∧ i.type = x.type := by
  constructor
  · intro h
    exact ⟨List.mem_of_find?_eq_some h, by simpa using List.find?_some h⟩
  · rintro ⟨hi, hn, ht⟩
    cases hc : counterpart stored x with
    | none =>
      have hno := List.find?_eq_none.mp hc i hi
      simp [hn, ht] at hno
    | some j =>
      have hj : j.name = x.name ∧ j.type = x.type := by simpa using List.find?_some hc
      exact congrArg some (List.inj_on_of_nodup_map hs (List.mem_of_find?_eq_some hc) hi
        (Prod.ext (hj.1.trans hn.symm) (hj.2.trans ht.symm)))

/-- An item is written as expected exactly if the dictionary still has its
counterpart under its name, when it has one. -/
theorem nextRequest_eq_iff (hs : (stored.map fun i => (i.name, i.type)).Nodup)
    {d : Dict String ProviderRead} (hd : Holds stored d) (x : ProviderCreateExtended) :
    nextRequest d x = expectedWrite stored x ↔
      ∀ i ∈ stored, i.name = x.name → i.type = x.type → d.get? x.name = some i := by
  have hnone : counterpart stored x = none →
      ∀ i ∈ stored, i.name = x.name → i.type ≠ x.type := fun hc i hi hn ht => by
    rw [(counterpart_eq_some hs).mpr ⟨hi, hn, ht⟩] at hc
    cases hc
  rw [nextRequest, expectedWrite]
  cases hc : counterpart stored x with
  | none =>
    refine iff_of_true ?_ fun i hi hn ht => absurd ht (hnone hc i hi hn)
    cases hg : d.get? x.name with
    | none => rfl
    | some j =>
      obtain ⟨hj, hn⟩ := hd x.name j hg
      exact if_pos (hnone hc j hj hn)
  | some i =>
    obtain ⟨hi, hn, ht⟩ := (counterpart_eq_some hs).mp hc
    have huniq : ∀ j ∈ stored, j.name = x.name → j.type = x.type → j = i := fun j hj hjn hjt =>
      List.inj_on_of_nodup_map hs hj hi (Prod.ext (hjn.trans hn.symm) (hjt.trans ht.symm))
    have hright : (∀ j ∈ stored, j.name = x.name → j.type = x.type → d.get? x.name = some j) ↔
        d.get? x.name = some i :=
      ⟨fun h => h i hi hn ht, fun h j hj hjn hjt => huniq j hj hjn hjt ▸ h⟩
    rw [hright, Option.elim_some]
    cases hg : d.get? x.name with
    | none => exact iff_of_false (fun h => by cases h) (fun h => by cases h)
    | some j =>
      rw [requestFor, Option.some.injEq]
      split
      · rename_i hjt
        exact iff_of_false (fun h => by cases h) fun hji => hjt (hji ▸ ht)
      · rw [Request.put.injEq, and_iff_left rfl]

/-- The writes are those expected exactly if each item with a counterpart is
the first of its name and finds its counterpart under its name. -/
theorem plan_eq_map_iff (hs : (stored.map fun i => (i.name, i.type)).Nodup) :
    ∀ {items : List ProviderCreateExtended} {d : Dict String ProviderRead},
      (items.map fun x => (x.name, x.type)).Nodup → Holds stored d →
      (plan (fun d item => d.erase item.name) nextRequest d items =
          items.map (expectedWrite stored) ↔
        ∀ x ∈ items, ∀ i ∈ stored, i.name = x.name → i.type = x.type →
          FirstOfName items x ∧ d.get? x.name = some i)
  | [], d, _, _ => by simp [plan]
  | x :: items, d, hi, hd => by
    obtain ⟨hx, hi⟩ := List.nodup_cons.mp hi
    rw [plan, List.map_cons, List.cons.injEq, nextRequest_eq_iff hs hd,
      plan_eq_map_iff hs hi (hd.erase x.name), List.forall_mem_cons]
    have hfirst : FirstOfName (x :: items) x := List.find?_cons_of_pos (by simp)
    refine and_congr ?_ (forall₂_congr fun y hy => forall₂_congr fun i _ => forall₂_congr fun _ _ => ?_)
    · simp only [hfirst, true_and]
    · rw [Dict.get?_erase]
      by_cases hyx : y.name = x.name
      · -- the entry under the name of `y` has been removed with `x`
        rw [if_pos hyx, FirstOfName, FirstOfName, List.find?_cons_of_pos (by simpa using hyx.symm)]
        refine iff_of_false (fun h => Option.some_ne_none i h.2.symm) fun h => hx ?_
        rw [Option.some.inj h.1]
        exact List.mem_map_of_mem hy
      · rw [if_neg hyx, FirstOfName, FirstOfName,
          List.find?_cons_of_neg (by simpa using Ne.symm hyx)]

/-- Expected writes update no stored provider twice and remove none. -/
theorem updatesEach_map {items : List ProviderCreateExtended}
    (hi : (items.map fun x => (x.name, x.type)).Nodup) :
    UpdatesEach stored items (.get :: items.map (expectedWrite stored)) := by
  refine ⟨rfl, fun i _ => ?_, fun i hi => ?_⟩
  · rw [List.countP_cons_of_neg Bool.false_ne_true, List.countP_map]
    have hputs : ∀ x ∈ items, (putsTo i ∘ expectedWrite stored) x = true →
        decide ((x.name, x.type) = (i.name, i.type)) = true := by
      intro x _ hx
      simp only [Function.comp_apply, expectedWrite] at hx
      cases hc : counterpart stored x with
      | none => rw [hc] at hx; cases hx
      | some j =>
        rw [hc, Option.elim_some, putsTo, decide_eq_true_eq] at hx
        have hj : j.name = x.name ∧ j.type = x.type := by simpa using List.find?_some hc
        rw [← hx, hj.1, hj.2, decide_eq_true_eq]
    calc items.countP (putsTo i ∘ expectedWrite stored)
        ≤ items.countP fun x => decide ((x.name, x.type) = (i.name, i.type)) :=
          List.countP_mono_left hputs
      _ = (items.filter fun x => (x.name, x.type) = (i.name, i.type)).length :=
          List.countP_eq_length_filter
      _ ≤ 1 := length_filter_key_le hi _
  · obtain ⟨x, -, hx⟩ := List.mem_map.mp ((List.mem_cons.mp hi).resolve_left (nomatch ·))
    rw [expectedWrite] at hx
    cases hc : counterpart stored x <;> rw [hc] at hx <;> cases hx

/-- When every request succeeds, `update_database` sends one write request for
each item, in order: an update of the stored provider with the same name and
type if there is one, a creation otherwise, never two updates of one stored
provider and no removal; if and only if each item that is stored is the first
item of its name, and what is stored of it the last of its name. -/
theorem updateDatabase_updates {registry : Registry} (hr : Succeeds registry stored)
    {token : String} (ht : token ≠ "") {items : List ProviderCreateExtended}
    (hs : (stored.map fun i => (i.name, i.type)).Nodup)
    (hi : (items.map fun x => (x.name, x.type)).Nodup) (url : String) (timeout : Int) :
    UpdatesEach stored items (updateDatabase registry url items token timeout {}).2.attempts ↔
      ∀ x ∈ items, ∀ i ∈ stored, i.name = x.name → i.type = x.type →
        FirstOfName items x ∧ LastOfName stored i := by
  rw [updateDatabase_run hr ht]
  have hiff := plan_eq_map_iff hs hi holds_ofStored
  have hlast : ∀ {x : ProviderCreateExtended} {i : ProviderRead}, i.name = x.name →
      ((Dict.ofList (stored.map fun i => (i.name, i))).get? x.name = some i ↔ LastOfName stored i) :=
    fun hn => by rw [get?_ofStored, LastOfName, hn]
  constructor
  · intro h x hx i hmem hn htype
    obtain ⟨hfirst, hget⟩ := hiff.mp (List.cons.inj h.writes).2 x hx i hmem hn htype
    exact ⟨hfirst, (hlast hn).mp hget⟩
  · intro h
    have hwrites : writes stored items = items.map (expectedWrite stored) :=
      hiff.mpr fun x hx i hmem hn htype =>
        ⟨(h x hx i hmem hn htype).1, (hlast hn).mpr (h x hx i hmem hn htype).2⟩
    show UpdatesEach stored items (.get :: writes stored items)
    rw [hwrites]
    exact updatesEach_map hi

end

/-- A registry that stores the given providers and accepts every write. -/
def acceptingRegistry (stored : List ProviderRead) : Registry := fun _ m =>
  match m.method with
  | .get => .ok { status := 200, providers := .ok stored }
  | .post => .ok { status := 201, provider := .ok { uid := "new", name := "new", type := .openstack } }
  | .put => .ok { status := 304 }
  | .delete => .ok { status := 204 }

theorem succeeds_acceptingRegistry (stored : List ProviderRead) :
    Succeeds (acceptingRegistry stored) stored where
  get n m hm := ⟨_, by rw [acceptingRegistry, hm], rfl, rfl⟩
  post n m hm := ⟨_, by rw [acceptingRegistry, hm], rfl, _, rfl⟩
  put n m hm := ⟨_, by rw [acceptingRegistry, hm], .inr rfl⟩

/-- A provider of the given type, with nothing in it. -/
def recas (type : ProviderType) : ProviderCreateExtended :=
  { name := "recas", type, status := .active, identityProviders := [], projects := [], regions := [] }

/-- It as the registry stores it. -/
def storedRecas (uid : String) (type : ProviderType) : ProviderRead := { uid, name := "recas", type }

/-- The URL of the providers. -/
def providersUrl : String := "http://localhost:8000/api/v1/providers"

theorem updateDatabase_updates_sample :
    UpdatesEach [storedRecas "a" .openstack] [recas .openstack, recas .kubernetes]
      (updateDatabase (acceptingRegistry [storedRecas "a" .openstack]) providersUrl
        [recas .openstack, recas .kubernetes] "token" 30 {}).2.attempts := by
  refine (updateDatabase_updates (succeeds_acceptingRegistry _) (by decide) (by decide) (by decide)
    _ _).mpr ?_
  intro x hx i hi hn ht
  rw [List.mem_singleton.mp hi] at hn ht ⊢
  simp only [List.mem_cons, List.not_mem_nil, or_false] at hx
  rcases hx with rfl | rfl
  · exact ⟨rfl, rfl⟩
  · cases ht

/-- Two providers of one name and different types are stored, and neither is
updated: the first item takes the only entry of the name, which is not of its
type, and the second item finds none. -/
theorem updates_lost :
    Succeeds (acceptingRegistry [storedRecas "a" .openstack, storedRecas "b" .kubernetes])
      [storedRecas "a" .openstack, storedRecas "b" .kubernetes] ∧
    ¬ UpdatesEach [storedRecas "a" .openstack, storedRecas "b" .kubernetes]
      [recas .openstack, recas .kubernetes]
      (updateDatabase
        (acceptingRegistry [storedRecas "a" .openstack, storedRecas "b" .kubernetes]) providersUrl
        [recas .openstack, recas .kubernetes] "token" 30 {}).2.attempts :=
  ⟨succeeds_acceptingRegistry _, fun h => absurd h.writes (by decide)⟩

end FRF.Proof
