import FedRegFeeder.Proof.Registry
import FedRegFeeder.Proof.Store

/-!
# Histories of the registry

A history is a sequence of runs of `update_database`, each of which may fail at
any request, with its answer lost after it was executed.

* `history_keeps`: it loses no provider, and writes only items;
* `history_refines`: as long as names are not used twice, it is a sequence of
  updates of the `Catalogue`, where providers are found by name;
* `history_converges`: the first run that returns `True` stores all its items,
  and later runs with the same items change nothing.
-/

namespace FRF.Spec

open FRF.Impl
open Framework

/-- From one store to the next no provider is lost or gets another name or
type, and what is new is one of the items. -/
structure Keeps (items : List ProviderCreateExtended) (σ σ' : Store) : Prop where
  kept : ∀ uid data, σ.get? uid = some data →
    ∃ data', σ'.get? uid = some data' ∧ data'.name = data.name ∧ data'.type = data.type
  written : ∀ uid data, σ'.get? uid = some data → σ.get? uid = some data ∨ data ∈ items

/-- One provider of each name at most, and of the type of the name. -/
structure Consistent (type : String → ProviderType) (σ : Store) : Prop where
  names : ∀ uid uid' data data', σ.get? uid = some data → σ.get? uid' = some data' →
    data.name = data'.name → uid = uid'
  types : ∀ uid data, σ.get? uid = some data → data.type = type data.name

/-- One item of each name at most, and of the type of the name. -/
structure Coherent (type : String → ProviderType) (items : List ProviderCreateExtended) : Prop where
  names : (items.map (·.name)).Nodup
  types : ∀ item ∈ items, item.type = type item.name

/-- The providers of the federation, with their uids, by name. -/
abbrev Catalogue := String → Option (String × ProviderCreateExtended)

def catalogue (σ : Store) : Catalogue := fun n => σ.entries.find? (·.2.name = n)

/-- What a run is for: providers keep their uids, new data are items, under
their names, and if `all` holds every item is there. -/
structure Updates (items : List ProviderCreateExtended) (all : Prop) (m m' : Catalogue) : Prop where
  kept : ∀ n uid data, m n = some (uid, data) → ∃ data', m' n = some (uid, data')
  written : ∀ n uid data, m' n = some (uid, data) →
    m n = some (uid, data) ∨ (data ∈ items ∧ data.name = n)
  complete : all → ∀ item ∈ items, ∃ uid, m' item.name = some (uid, item)

/-- The item is stored, in place of the provider of its name if there is one. -/
inductive Stores (item : ProviderCreateExtended) (σ : Store) : Store → Prop
  | replace {uid : String} {old : ProviderCreateExtended} : σ.get? uid = some old →
    old.name = item.name → Stores item σ (σ.set uid item)
  | add {uid : String} : σ.get? uid = none →
    (∀ uid' old, σ.get? uid' = some old → old.name ≠ item.name) → Stores item σ (σ.set uid item)

/-- Every item is stored as it is. -/
def InSync (items : List ProviderCreateExtended) (σ : Store) : Prop :=
  ∀ item ∈ items, ∃ uid, σ.get? uid = some item

end FRF.Spec

namespace FRF.Proof

open FRF.Impl FRF.Spec
open Py (PyError)
open Framework Session

/-! ## The requests of a run -/

/-- An item is created, or written to the stored provider of its name and
type. -/
theorem mem_writes_item {stored : List ProviderRead} {items : List ProviderCreateExtended}
    {q : Request} (h : q ∈ writes stored items) : (∃ item ∈ items, q = .post item) ∨
      ∃ i ∈ stored, ∃ item ∈ items, q = .put i item ∧ i.name = item.name ∧ i.type = item.type := by
  obtain ⟨d, hd, item, hitem, rfl⟩ :=
    mem_plan_inv (fun d (item : ProviderCreateExtended) hd => hd.erase item.name) holds_ofStored h
  rw [nextRequest]
  cases hi : d.get? item.name with
  | none => exact .inl ⟨item, hitem, rfl⟩
  | some i =>
    obtain ⟨hmem, hname⟩ := hd _ i hi
    rw [requestFor]
    split
    · exact .inl ⟨item, hitem, rfl⟩
    · rename_i htype
      exact .inr ⟨i, hmem, item, hitem, rfl, hname, not_not.mp htype⟩

section
variable {url : String} {σ σ' : Store} {run : Run}

/-- The requests of a run, and what they do to the store: the one that reads
comes first and does nothing. -/
theorem syncs_cases (h : Syncs url σ run σ') : (σ' = σ ∧ run.result ≠ .ok true) ∨
    ∃ stored answer l, stored.Perm (σ.entries.map listed) ∧ l <+: writes stored run.items ∧
      Steps (Exchange (client url run.token run.timeout)) σ (exchanges answer 1 l) σ' ∧
      (run.result = .ok true → l = writes stored run.items ∧ ∀ x ∈ exchanges answer 1 l, Accepted x) := by
  obtain ⟨registry, hresult, hsteps⟩ := h
  -- with the request that reads, whatever was planned
  have hget : ∀ {l : List Request}, Steps (Exchange (client url run.token run.timeout)) σ
      (exchanges (answerTo registry (client url run.token run.timeout)) 0 (.get :: l)) σ' →
        Steps (Exchange (client url run.token run.timeout)) σ
          (exchanges (answerTo registry (client url run.token run.timeout)) 1 l) σ' ∧
        ∀ stored, Lists (answerTo registry (client url run.token run.timeout) 0 .get) stored →
          stored.Perm (σ.entries.map listed) := by
    intro l hl
    obtain ⟨t, ht, hrest⟩ := Steps.cons_iff.mp hl
    obtain ⟨rfl, hlists⟩ := exchange_get ht
    exact ⟨hrest, hlists⟩
  by_cases htrue : run.result = .ok true
  · rw [htrue] at hresult
    obtain ⟨⟨stored, hlists, hattempts⟩, haccepted⟩ :=
      updateDatabase_true registry url run.token run.timeout run.items hresult.symm
    rw [hattempts] at hsteps haccepted
    obtain ⟨hl, hperm⟩ := hget hsteps
    exact .inr ⟨stored, _, _, hperm stored hlists, List.prefix_rfl, hl,
      fun _ => ⟨rfl, fun x hx => haccepted x (List.mem_cons_of_mem _ hx)⟩⟩
  · rcases updateDatabase_attempts registry url run.token run.timeout run.items with
      hattempts | hattempts | ⟨_, ⟨stored, hlists, rfl⟩, hprefix⟩
    · rw [hattempts] at hsteps
      exact .inl ⟨Steps.nil_iff.mp hsteps, htrue⟩
    · rw [hattempts] at hsteps
      exact .inl ⟨Steps.nil_iff.mp (hget hsteps).1, htrue⟩
    · rcases List.prefix_cons_iff.mp hprefix with hattempts | ⟨l, hattempts, hl⟩
      · rw [hattempts] at hsteps
        exact .inl ⟨Steps.nil_iff.mp hsteps, htrue⟩
      · rw [hattempts] at hsteps
        obtain ⟨hsteps, hperm⟩ := hget hsteps
        exact .inr ⟨stored, _, l, hperm stored hlists, hl, hsteps, fun h => absurd h htrue⟩

end

/-! ## No provider is lost -/

theorem keeps_refl (items : List ProviderCreateExtended) (σ : Store) : Keeps items σ σ :=
  ⟨fun _ data h => ⟨data, h, rfl, rfl⟩, fun _ _ h => .inl h⟩

theorem keeps_trans {items items' : List ProviderCreateExtended} {σ σ₁ σ₂ : Store}
    (h : Keeps items σ σ₁) (h' : Keeps items' σ₁ σ₂) : Keeps (items ++ items') σ σ₂ := by
  constructor
  · intro uid data hdata
    obtain ⟨data₁, h₁, hname₁, htype₁⟩ := h.kept uid data hdata
    obtain ⟨data₂, h₂, hname₂, htype₂⟩ := h'.kept uid data₁ h₁
    exact ⟨data₂, h₂, hname₂.trans hname₁, htype₂.trans htype₁⟩
  · intro uid data hdata
    rcases h'.written uid data hdata with h₁ | hitem
    · exact (h.written uid data h₁).imp_right (List.mem_append_left items')
    · exact .inr (List.mem_append_right items hitem)

/-- Storing an item under a fresh uid, or over data with its name and type. -/
theorem keeps_set {items : List ProviderCreateExtended} {σ σ₁ : Store} (h : Keeps items σ σ₁)
    {item : ProviderCreateExtended} (hitem : item ∈ items) {uid : String}
    (hold : ∀ old, σ.get? uid = some old → item.name = old.name ∧ item.type = old.type) :
    Keeps items σ (σ₁.set uid item) := by
  constructor
  · intro uid' data hdata
    by_cases huid : uid' = uid
    · rw [huid] at hdata ⊢
      exact ⟨item, by rw [Dict.get?_set, if_pos rfl], hold data hdata⟩
    · rw [Dict.get?_set, if_neg huid]
      exact h.kept uid' data hdata
  · intro uid' data hdata
    rw [Dict.get?_set] at hdata
    split at hdata
    · cases hdata
      exact .inr hitem
    · exact h.written uid' data hdata

theorem mem_listing {σ : Store} {i : ProviderRead} (h : i ∈ σ.entries.map listed) :
    ∃ data, σ.get? i.uid = some data ∧ i.name = data.name ∧ i.type = data.type := by
  obtain ⟨e, he, rfl⟩ := List.mem_map.mp h
  exact ⟨e.2, Dict.get?_eq_some_iff.mpr he, rfl, rfl⟩

/-- A run keeps what is stored, however it ends. -/
theorem syncs_keeps {url : String} {σ σ' : Store} {run : Run} (h : Syncs url σ run σ') :
    Keeps run.items σ σ' := by
  rcases syncs_cases h with ⟨rfl, -⟩ | ⟨stored, answer, l, hperm, hl, hsteps, -⟩
  · exact keeps_refl _ _
  · refine hsteps.invariant (I := Keeps run.items σ) ?_ (keeps_refl _ _)
    intro x hx t t' ht hexchange
    obtain ⟨q, o⟩ := x
    obtain ⟨hq, -⟩ := mem_exchanges hx
    rcases mem_writes_item (hl.subset hq) with ⟨item, hitem, rfl⟩ | ⟨i, hi, item, hitem, rfl, hn, ht'⟩
    · rcases exchange_post hexchange with ⟨rfl, -⟩ | ⟨uid, hfresh, rfl⟩
      · exact ht
      · refine keeps_set ht hitem fun old hold => ?_
        -- what was stored before the run still is
        obtain ⟨data, hdata, -⟩ := ht.kept uid old hold
        rw [hfresh] at hdata
        cases hdata
    · rcases exchange_put hexchange with ⟨rfl, -⟩ | ⟨-, -, rfl⟩
      · exact ht
      · refine keeps_set ht hitem fun old hold => ?_
        obtain ⟨data, hdata, hname, htype⟩ := mem_listing (hperm.subset hi)
        rw [hold] at hdata
        cases hdata
        exact ⟨hn.symm.trans hname, ht'.symm.trans htype⟩

/-- In every history, whatever the runs are called with and however their
requests end, no stored provider is lost or gets another name or type, and all
that is written is an item of one of the runs. -/
theorem history_keeps {url : String} {σ σ' : Store} {runs : List Run}
    (h : Steps (Syncs url) σ runs σ') : Keeps (runs.flatMap (·.items)) σ σ' := by
  induction h with
  | nil => exact keeps_refl _ _
  | cons hrun _ ih => exact keeps_trans (syncs_keeps hrun) ih

/-- The data of a stored provider change, and a provider is new. -/
def sampleItems : List ProviderCreateExtended :=
  [{ recas .openstack with isPublic := true }, { recas .kubernetes with name := "kube" }]

/-- The store before, and after the write of each sample item. -/
def sampleStore : Store := Dict.empty.set "a" (recas .openstack)
def sampleStore₁ : Store := sampleStore.set "a" { recas .openstack with isPublic := true }
def sampleStore₂ : Store := sampleStore₁.set "b" { recas .kubernetes with name := "kube" }

/-- The update is executed, but the connection is lost. -/
def failingRun : Run := { items := sampleItems, token := "token", timeout := 30, result := .ok false }

def succeedingRun : Run := { failingRun with result := .ok true }

theorem exchange_listing (crud : CRUD) (σ : Store) :
    Exchange crud σ (.get, .ok { status := 200, providers := .ok (σ.entries.map listed) }) σ where
  executes := .inl rfl
  lists r hr _ _ := by
    cases hr
    exact ⟨_, rfl, .refl _⟩
  created _ _ := nofun
  updated _ _ := nofun
  unmodified _ _ := nofun

/-- An update that is executed, but not answered. -/
theorem exchange_lost (crud : CRUD) {σ : Store} {i : ProviderRead} (item : ProviderCreateExtended)
    {old : ProviderCreateExtended} (h : σ.get? i.uid = some old) (e : PyError) :
    Exchange crud σ (.put i item, .error e) (σ.set i.uid item) where
  executes := .inr (.update rfl rfl rfl h)
  lists r hr := by cases hr
  created r hr := by cases hr
  updated r hr := by cases hr
  unmodified r hr := by cases hr

theorem exchange_updated (crud : CRUD) {σ : Store} {i : ProviderRead} (item : ProviderCreateExtended)
    {old : ProviderCreateExtended} (h : σ.get? i.uid = some old) (provider : ProviderRead) :
    Exchange crud σ (.put i item, .ok { status := 200, provider := .ok provider }) (σ.set i.uid item) where
  executes := .inr (.update rfl rfl rfl h)
  lists _ _ := nofun
  created _ _ := nofun
  updated _ _ _ _ := .update rfl rfl rfl h
  unmodified _ hr _ h := by
    cases hr
    cases h

theorem exchange_unmodified (crud : CRUD) {σ : Store} {i : ProviderRead} (item : ProviderCreateExtended)
    (h : σ.get? i.uid = some item) : Exchange crud σ (.put i item, .ok { status := 304 }) σ where
  executes := .inl rfl
  lists _ _ := nofun
  created _ _ := nofun
  updated _ _ _ _ := by
    have hput : Executes crud.multiUrl σ (crud.message (.put i item)) (σ.set i.uid item) :=
      .update rfl rfl rfl h
    rwa [Dict.set_eq_self h] at hput
  unmodified _ _ _ _ := rfl

theorem exchange_created (crud : CRUD) {σ : Store} (uid : String) (item : ProviderCreateExtended)
    (h : σ.get? uid = none) (provider : ProviderRead) :
    Exchange crud σ (.post item, .ok { status := 201, provider := .ok provider }) (σ.set uid item) where
  executes := .inr (.create rfl rfl rfl h)
  lists _ _ := nofun
  created _ _ _ _ := .create rfl rfl rfl h
  updated _ _ := nofun
  unmodified _ _ := nofun

/-- The registry of the first run. -/
def failingRegistry : Registry := fun n _ =>
  if n = 0 then .ok { status := 200, providers := .ok [storedRecas "a" .openstack] }
  else .error .connectionError

/-- The registry of the second one. -/
def succeedingRegistry : Registry := fun n _ =>
  if n = 0 then .ok { status := 200, providers := .ok [storedRecas "a" .openstack] }
  else if n = 1 then .ok { status := 304 }
  else .ok { status := 201, provider := .ok { uid := "b", name := "kube", type := .kubernetes } }

theorem syncs_failingRun : Syncs providersUrl sampleStore failingRun sampleStore₁ := by
  refine ⟨failingRegistry, rfl, ?_⟩
  have hattempts : (updateDatabase failingRegistry providersUrl failingRun.items failingRun.token
      failingRun.timeout {}).2.attempts =
        [.get, .put (storedRecas "a" .openstack) { recas .openstack with isPublic := true }] := rfl
  rw [hattempts]
  refine Steps.cons_iff.mpr ⟨sampleStore, exchange_listing _ sampleStore, ?_⟩
  refine Steps.cons_iff.mpr ⟨sampleStore₁, ?_, .nil _⟩
  exact exchange_lost _ (σ := sampleStore) (i := storedRecas "a" .openstack) _ rfl .connectionError

theorem syncs_succeedingRun : Syncs providersUrl sampleStore₁ succeedingRun sampleStore₂ := by
  refine ⟨succeedingRegistry, rfl, ?_⟩
  have hattempts : (updateDatabase succeedingRegistry providersUrl succeedingRun.items
      succeedingRun.token succeedingRun.timeout {}).2.attempts =
        [.get, .put (storedRecas "a" .openstack) { recas .openstack with isPublic := true },
          .post { recas .kubernetes with name := "kube" }] := rfl
  rw [hattempts]
  refine Steps.cons_iff.mpr ⟨sampleStore₁, exchange_listing _ sampleStore₁, ?_⟩
  refine Steps.cons_iff.mpr ⟨sampleStore₁, ?_, Steps.cons_iff.mpr ⟨sampleStore₂, ?_, .nil _⟩⟩
  · exact exchange_unmodified _ (σ := sampleStore₁) (i := storedRecas "a" .openstack) _ rfl
  · exact exchange_created _ (σ := sampleStore₁) "b" _ rfl _

theorem history_keeps_sample :
    Keeps (sampleItems ++ (sampleItems ++ [])) sampleStore sampleStore₂ :=
  history_keeps (.cons syncs_failingRun (.cons syncs_succeedingRun (.nil _)))

/-! ## Catalogues -/

section
variable {type : String → ProviderType} {σ σ' : Store} {item : ProviderCreateExtended}

theorem catalogue_eq_some (hσ : Consistent type σ) {n uid : String} {data : ProviderCreateExtended} :
    catalogue σ n = some (uid, data) ↔ σ.get? uid = some data ∧ data.name = n := by
  constructor
  · intro h
    exact ⟨Dict.get?_eq_some_iff.mpr (List.mem_of_find?_eq_some h), by simpa using List.find?_some h⟩
  · intro h
    obtain ⟨hdata, hname⟩ := h
    cases hf : catalogue σ n with
    | none =>
      have hno := List.find?_eq_none.mp hf _ (Dict.get?_eq_some_iff.mp hdata)
      exact absurd hname (by simpa using hno)
    | some e =>
      have he : σ.get? e.1 = some e.2 := Dict.get?_eq_some_iff.mpr (List.mem_of_find?_eq_some hf)
      have hn : e.2.name = n := by simpa using List.find?_some hf
      have huid := hσ.names e.1 uid e.2 data he hdata (hn.trans hname.symm)
      rw [huid, hdata] at he
      rw [← huid, Option.some.inj he]

/-- Names that no item has are left alone. -/
theorem updates_other {items : List ProviderCreateExtended} {all : Prop} {m m' : Catalogue}
    (h : Updates items all m m') {n : String} (hn : ∀ item ∈ items, item.name ≠ n) : m' n = m n := by
  cases hm' : m' n with
  | some e =>
    rcases h.written n e.1 e.2 hm' with hm | ⟨hitem, hname⟩
    · exact hm.symm
    · exact absurd hname (hn _ hitem)
  | none =>
    cases hm : m n with
    | none => rfl
    | some e =>
      obtain ⟨data', hdata'⟩ := h.kept n e.1 e.2 hm
      rw [hm'] at hdata'
      cases hdata'

theorem updates_refl (items : List ProviderCreateExtended) {all : Prop} (hall : ¬ all) (m : Catalogue) :
    Updates items all m m :=
  ⟨fun _ _ data h => ⟨data, h⟩, fun _ _ _ h => .inl h, fun h => absurd h hall⟩

theorem updates_cons {items : List ProviderCreateExtended} {p q all : Prop} {m m₁ m₂ : Catalogue}
    (h : Updates [item] p m m₁) (h' : Updates items q m₁ m₂) (hn : item.name ∉ items.map (·.name))
    (hall : all → p ∧ q) : Updates (item :: items) all m m₂ := by
  refine ⟨?_, ?_, ?_⟩
  · intro n uid data hm
    obtain ⟨data₁, h₁⟩ := h.kept n uid data hm
    exact h'.kept n uid data₁ h₁
  · intro n uid data h₂
    rcases h'.written n uid data h₂ with h₁ | ⟨hitem, hname⟩
    · refine (h.written n uid data h₁).imp_right fun hdata => ?_
      exact ⟨List.mem_cons.mpr (.inl (List.mem_singleton.mp hdata.1)), hdata.2⟩
    · exact .inr ⟨List.mem_cons_of_mem item hitem, hname⟩
  · intro ha x hx
    obtain ⟨hp, hq⟩ := hall ha
    rcases List.mem_cons.mp hx with rfl | hx
    · obtain ⟨uid, huid⟩ := h.complete hp x List.mem_cons_self
      refine ⟨uid, ?_⟩
      rw [updates_other h' fun y hy hyx =>
        hn (List.mem_map.mpr ⟨y, hy, hyx⟩), huid]
    · exact h'.complete hq x hx

theorem updates_mono {l items : List ProviderCreateExtended} {p all : Prop} {m m' : Catalogue}
    (h : Updates l p m m') (hl : l ⊆ items) (hall : all → p ∧ l = items) : Updates items all m m' := by
  refine ⟨h.kept, fun n uid data hm => (h.written n uid data hm).imp_right fun hdata =>
    ⟨hl hdata.1, hdata.2⟩, fun ha => ?_⟩
  obtain ⟨hp, rfl⟩ := hall ha
  exact h.complete hp

/-- The uid under which an item is stored is that of the provider of its name,
if there is one. -/
theorem stores_uid (hσ : Consistent type σ) (h : Stores item σ σ') : ∃ uid, σ' = σ.set uid item ∧
    ∀ uid' data, σ.get? uid' = some data → (data.name = item.name ↔ uid' = uid) := by
  cases h with
  | @replace uid old hold hname =>
    refine ⟨uid, rfl, fun uid' data hdata => ⟨fun hn => ?_, fun huid => ?_⟩⟩
    · exact hσ.names uid' uid data old hdata hold (hn.trans hname.symm)
    · rw [huid, hold] at hdata
      exact Option.some.inj hdata ▸ hname
  | @add uid hfresh hnone =>
    refine ⟨uid, rfl, fun uid' data hdata => iff_of_false (hnone uid' data hdata) fun huid => ?_⟩
    rw [huid, hfresh] at hdata
    cases hdata

theorem stores_consistent (hσ : Consistent type σ) (hitem : item.type = type item.name)
    (h : Stores item σ σ') : Consistent type σ' := by
  obtain ⟨uid, rfl, huid⟩ := stores_uid hσ h
  constructor
  · intro uid₁ uid₂ data₁ data₂ h₁ h₂ hname
    rw [Dict.get?_set] at h₁ h₂
    split at h₁ <;> split at h₂ <;> rename_i hu₁ hu₂
    · exact hu₁.trans hu₂.symm
    · cases h₁
      exact hu₁.trans ((huid uid₂ data₂ h₂).mp hname.symm).symm
    · cases h₂
      exact ((huid uid₁ data₁ h₁).mp hname).trans hu₂.symm
    · exact hσ.names uid₁ uid₂ data₁ data₂ h₁ h₂ hname
  · intro uid' data hdata
    rw [Dict.get?_set] at hdata
    split at hdata
    · cases hdata
      exact hitem
    · exact hσ.types uid' data hdata

theorem stores_updates (hσ : Consistent type σ) (hitem : item.type = type item.name)
    (h : Stores item σ σ') : Updates [item] True (catalogue σ) (catalogue σ') := by
  have hσ' := stores_consistent hσ hitem h
  obtain ⟨uid, rfl, huid⟩ := stores_uid hσ h
  have hstored : catalogue (σ.set uid item) item.name = some (uid, item) :=
    (catalogue_eq_some hσ').mpr ⟨by rw [Dict.get?_set, if_pos rfl], rfl⟩
  refine ⟨?_, ?_, ?_⟩
  · intro n uid' data hdata
    obtain ⟨hget, hname⟩ := (catalogue_eq_some hσ).mp hdata
    by_cases hu : uid' = uid
    · refine ⟨item, ?_⟩
      rw [← hname, (huid uid' data hget).mpr hu, hu]
      exact hstored
    · refine ⟨data, (catalogue_eq_some hσ').mpr ⟨?_, hname⟩⟩
      rw [Dict.get?_set, if_neg hu]
      exact hget
  · intro n uid' data hdata
    obtain ⟨hget, hname⟩ := (catalogue_eq_some hσ').mp hdata
    rw [Dict.get?_set] at hget
    split at hget
    · cases hget
      exact .inr ⟨List.mem_singleton_self _, hname⟩
    · exact .inl ((catalogue_eq_some hσ).mpr ⟨hget, hname⟩)
  · intro _ x hx
    rw [List.mem_singleton.mp hx]
    exact ⟨uid, hstored⟩

end

/-! ## A run updates the catalogue -/

section
variable {type : String → ProviderType} {σ σ' τ τ' : Store} {stored : List ProviderRead}
  {item : ProviderCreateExtended} {items : List ProviderCreateExtended} {crud : CRUD}

theorem mem_listed (hperm : stored.Perm (σ.entries.map listed)) {i : ProviderRead} :
    i ∈ stored ↔ ∃ data, σ.get? i.uid = some data ∧ i.name = data.name ∧ i.type = data.type := by
  rw [hperm.mem_iff]
  constructor
  · exact mem_listing
  · intro h
    obtain ⟨data, hdata, hname, htype⟩ := h
    refine List.mem_map.mpr ⟨_, Dict.get?_eq_some_iff.mp hdata, ?_⟩
    rw [listed, ← hname, ← htype]

theorem nodup_listed (hσ : Consistent type σ) (hperm : stored.Perm (σ.entries.map listed)) :
    (stored.map (·.name)).Nodup := by
  rw [(hperm.map _).nodup_iff, List.map_map]
  refine (List.Nodup.of_map Prod.fst σ.nodup).map_on ?_
  intro e he e' he' hname
  have huid : e.1 = e'.1 := hσ.names e.1 e'.1 e.2 e'.2 (Dict.get?_eq_some_iff.mpr he)
    (Dict.get?_eq_some_iff.mpr he') hname
  exact List.inj_on_of_nodup_map σ.nodup he he' huid

theorem find?_name {α : Type} {l : List α} {name : α → String} (hl : (l.map name).Nodup) {a : α}
    (ha : a ∈ l) : l.find? (fun b => name b = name a) = some a := by
  cases hf : l.find? (fun b => name b = name a) with
  | none => exact absurd (decide_eq_true rfl) (List.find?_eq_none.mp hf a ha)
  | some b =>
    have hb : name b = name a := by simpa using List.find?_some hf
    rw [List.inj_on_of_nodup_map hl (List.mem_of_find?_eq_some hf) ha hb]

theorem writes_eq_map (hσ : Consistent type σ) (hperm : stored.Perm (σ.entries.map listed))
    (hitems : Coherent type items) : writes stored items = items.map (expectedWrite stored) := by
  have hnames := nodup_listed hσ hperm
  have hpairs : ∀ {α : Type} {l : List α} {name : α → String} {t : α → ProviderType},
      (l.map name).Nodup → (l.map fun a => (name a, t a)).Nodup := fun {α l name t} hl => by
    refine List.Nodup.of_map Prod.fst ?_
    rwa [List.map_map]
  refine (plan_eq_map_iff (hpairs hnames) (hpairs hitems.names) holds_ofStored).mpr ?_
  intro x hx i hi hname _
  refine ⟨find?_name hitems.names hx, ?_⟩
  rw [get?_ofStored, ← hname]
  exact find?_name (by rwa [List.map_reverse, List.nodup_reverse]) (List.mem_reverse.mpr hi)

/-- The write of an item, sent when the store has under the name of the item
what was listed under it. -/
theorem exchange_item (hσ : Consistent type σ) (hperm : stored.Perm (σ.entries.map listed))
    (hτ : Consistent type τ) (hitem : item.type = type item.name)
    (hname : catalogue τ item.name = catalogue σ item.name) {o : Except PyError Response}
    (h : Exchange crud τ (expectedWrite stored item, o) τ') :
    (τ' = τ ∧ ¬ Accepted (expectedWrite stored item, o)) ∨ Stores item τ τ' := by
  rw [expectedWrite] at h ⊢
  cases hc : counterpart stored item with
  | none =>
    rw [hc] at h
    refine (exchange_post h).imp_right fun hpost => ?_
    obtain ⟨uid, hfresh, rfl⟩ := hpost
    refine .add hfresh fun uid' old hold hn => ?_
    -- it would have been listed
    have hcat := (catalogue_eq_some hτ).mpr ⟨hold, hn⟩
    obtain ⟨hget, -⟩ := (catalogue_eq_some hσ).mp (hname ▸ hcat)
    have hmem : listed (uid', old) ∈ stored := (mem_listed hperm).mpr ⟨old, hget, rfl, rfl⟩
    have htype : old.type = item.type := by rw [hσ.types uid' old hget, hn, hitem]
    have hno := List.find?_eq_none.mp hc _ hmem
    simp only [listed, hn, htype, and_self, decide_true, not_true_eq_false] at hno
  | some i =>
    rw [hc] at h
    obtain ⟨hin, -⟩ : i.name = item.name ∧ i.type = item.type := by simpa using List.find?_some hc
    obtain ⟨data, hdata, hdn, -⟩ := (mem_listed hperm).mp (List.mem_of_find?_eq_some hc)
    have hcat := (catalogue_eq_some hσ).mpr ⟨hdata, hdn.symm.trans hin⟩
    obtain ⟨hget, hn⟩ := (catalogue_eq_some hτ).mp (hname.trans hcat)
    refine (exchange_put h).imp_right fun hput => ?_
    obtain ⟨-, -, rfl⟩ := hput
    exact .replace hget hn

/-- The writes of items whose names have not been written yet. -/
theorem steps_updates (hσ : Consistent type σ) (hperm : stored.Perm (σ.entries.map listed))
    {answer : Nat → Request → Except PyError Response} :
    ∀ {l : List ProviderCreateExtended} {n : Nat} {τ : Store}, Coherent type l → Consistent type τ →
      (∀ item ∈ l, catalogue τ item.name = catalogue σ item.name) →
      Steps (Exchange crud) τ (exchanges answer n (l.map (expectedWrite stored))) τ' →
        Consistent type τ' ∧
          Updates l (∀ x ∈ exchanges answer n (l.map (expectedWrite stored)), Accepted x)
            (catalogue τ) (catalogue τ')
  | [], n, τ, _, hτ, _, h => by
    rw [Steps.nil_iff.mp h]
    exact ⟨hτ, fun _ _ data h => ⟨data, h⟩, fun _ _ _ h => .inl h, fun _ => nofun⟩
  | item :: l, n, τ, hl, hτ, hcat, h => by
    obtain ⟨hnew, hnames⟩ := List.nodup_cons.mp hl.names
    have hrest : Coherent type l := ⟨hnames, fun x hx => hl.types x (List.mem_cons_of_mem item hx)⟩
    have hitem := hl.types item List.mem_cons_self
    obtain ⟨τ₁, h₁, h₂⟩ := Steps.cons_iff.mp h
    -- what the write of the first item does
    have hone : Consistent type τ₁ ∧
        Updates [item] (Accepted (expectedWrite stored item, answer n (expectedWrite stored item)))
          (catalogue τ) (catalogue τ₁) := by
      rcases exchange_item hσ hperm hτ hitem (hcat item List.mem_cons_self) h₁ with ⟨rfl, hno⟩ | hstores
      · exact ⟨hτ, updates_refl _ hno _⟩
      · exact ⟨stores_consistent hτ hitem hstores,
          updates_mono (stores_updates hτ hitem hstores) (fun _ => id) fun _ => ⟨trivial, rfl⟩⟩
    have hcat₁ : ∀ x ∈ l, catalogue τ₁ x.name = catalogue σ x.name := by
      intro x hx
      rw [updates_other hone.2, hcat x (List.mem_cons_of_mem item hx)]
      intro y hy hyx
      rw [List.mem_singleton.mp hy] at hyx
      exact hnew (List.mem_map.mpr ⟨x, hx, hyx.symm⟩)
    obtain ⟨hτ', hupdates⟩ := steps_updates hσ hperm hrest hone.1 hcat₁ h₂
    exact ⟨hτ', updates_cons hone.2 hupdates hnew fun hall => List.forall_mem_cons.mp hall⟩

theorem syncs_updates {url : String} {run : Run} (hσ : Consistent type σ)
    (hitems : Coherent type run.items) (h : Syncs url σ run σ') : Consistent type σ' ∧
      Updates run.items (run.result = .ok true) (catalogue σ) (catalogue σ') := by
  rcases syncs_cases h with ⟨rfl, hresult⟩ | ⟨stored, answer, l, hperm, hl, hsteps, htrue⟩
  · exact ⟨hσ, updates_refl _ hresult _⟩
  · rw [writes_eq_map hσ hperm hitems] at hl htrue
    obtain ⟨sent, hsent, rfl⟩ := List.prefix_map_iff.mp hl
    have hcoherent : Coherent type sent :=
      ⟨hitems.names.sublist (hsent.sublist.map _), fun x hx => hitems.types x (hsent.subset hx)⟩
    obtain ⟨hσ', hupdates⟩ := steps_updates hσ hperm hcoherent hσ (fun _ _ => rfl) hsteps
    refine ⟨hσ', updates_mono hupdates hsent.subset fun hresult => ?_⟩
    obtain ⟨hall, haccepted⟩ := htrue hresult
    refine ⟨haccepted, hsent.eq_of_length ?_⟩
    simpa using congrArg List.length hall

/-- As long as every name has one type and one item in each run, every history
is one of updates of the catalogue, however its requests end: there is one
provider of each name at most, it keeps its uid, and its data are the old ones
or those of the item, which a run that returns `True` has written. -/
theorem history_refines {url : String} {runs : List Run}
    (hitems : ∀ run ∈ runs, Coherent type run.items) (hσ : Consistent type σ)
    (h : Steps (Syncs url) σ runs σ') : Consistent type σ' ∧
      Steps (fun m run m' => Updates run.items (run.result = .ok true) m m') (catalogue σ) runs
        (catalogue σ') := by
  have hstep : ∀ run ∈ runs, ∀ τ τ' m, (Consistent type τ ∧ m = catalogue τ) → Syncs url τ run τ' →
      ∃ m', Updates run.items (run.result = .ok true) m m' ∧ Consistent type τ' ∧ m' = catalogue τ' := by
    intro run hrun τ τ' m hτ hsync
    obtain ⟨hτ, rfl⟩ := hτ
    obtain ⟨hτ', hupdates⟩ := syncs_updates hτ (hitems run hrun) hsync
    exact ⟨_, hupdates, hτ', rfl⟩
  obtain ⟨m', hm', hσ', rfl⟩ := h.simulates hstep ⟨hσ, rfl⟩
  exact ⟨hσ', hm'⟩

/-- The types of the sample items. -/
def sampleTypes (n : String) : ProviderType := if n = "kube" then .kubernetes else .openstack

theorem coherent_sampleItems : Coherent sampleTypes sampleItems := ⟨by decide, by decide⟩

theorem get?_sampleStore {uid : String} {data : ProviderCreateExtended}
    (h : sampleStore.get? uid = some data) : uid = "a" ∧ data = recas .openstack := by
  rw [sampleStore, Dict.get?_set] at h
  split at h
  · cases h
    exact ⟨‹_›, rfl⟩
  · cases h

theorem consistent_sampleStore : Consistent sampleTypes sampleStore := by
  constructor
  · intro uid uid' data data' h h' _
    rw [(get?_sampleStore h).1, (get?_sampleStore h').1]
  · intro uid data h
    rw [(get?_sampleStore h).2]
    rfl

theorem history_refines_sample : Consistent sampleTypes sampleStore₂ ∧
    Steps (fun m run m' => Updates run.items (run.result = .ok true) m m') (catalogue sampleStore)
      [failingRun, succeedingRun] (catalogue sampleStore₂) := by
  refine history_refines ?_ consistent_sampleStore
    (.cons syncs_failingRun (.cons syncs_succeedingRun (.nil _)))
  intro run hrun
  rcases List.mem_pair.mp hrun with rfl | rfl <;> exact coherent_sampleItems

/-! ## Runs that change nothing -/

theorem stores_eq_self (hσ : Consistent type σ) {uid : String} (hget : σ.get? uid = some item)
    (h : Stores item σ σ') : σ' = σ := by
  obtain ⟨uid', rfl, huid⟩ := stores_uid hσ h
  rw [← (huid uid item hget).mp rfl, Dict.set_eq_self hget]

/-- A run whose items are stored as they are leaves the store as it is, however
its requests end. -/
theorem syncs_eq_self {url : String} {run : Run} (hσ : Consistent type σ)
    (hitems : Coherent type run.items) (hsync : InSync run.items σ) (h : Syncs url σ run σ') :
    σ' = σ := by
  rcases syncs_cases h with ⟨rfl, -⟩ | ⟨stored, answer, l, hperm, hl, hsteps, -⟩
  · rfl
  · rw [writes_eq_map hσ hperm hitems] at hl
    refine hsteps.invariant (I := (· = σ)) ?_ rfl
    intro x hx t t' ht hexchange
    subst ht
    obtain ⟨q, o⟩ := x
    obtain ⟨item, hitem, rfl⟩ := List.mem_map.mp (hl.subset (mem_exchanges hx).1)
    rcases exchange_item hσ hperm hσ (hitems.types item hitem) rfl hexchange with ⟨rfl, -⟩ | hstores
    · rfl
    · obtain ⟨uid, huid⟩ := hsync item hitem
      exact stores_eq_self hσ huid hstores

/-- Whatever happened before, the run that returns `True` stores every item
under its name and nothing else, and later runs with the same items change
nothing, however they end. -/
theorem history_converges {url : String} {runs later : List Run} {run : Run} {σ₁ σ₂ σ₃ : Store}
    (hitems : ∀ r ∈ runs, Coherent type r.items) (hrun : Coherent type run.items)
    (hσ : Consistent type σ) (h : Steps (Syncs url) σ runs σ₁) (hsync : Syncs url σ₁ run σ₂)
    (htrue : run.result = .ok true) (hlater : ∀ r ∈ later, r.items = run.items)
    (h' : Steps (Syncs url) σ₂ later σ₃) :
    (∀ item ∈ run.items, ∃ uid, catalogue σ₂ item.name = some (uid, item)) ∧
      (∀ n, (∀ item ∈ run.items, item.name ≠ n) → catalogue σ₂ n = catalogue σ₁ n) ∧ σ₃ = σ₂ := by
  have hσ₁ : Consistent type σ₁ :=
    h.invariant (fun r hr _ _ hτ hsync => (syncs_updates hτ (hitems r hr) hsync).1) hσ
  obtain ⟨hσ₂, hupdates⟩ := syncs_updates hσ₁ hrun hsync
  have hin : InSync run.items σ₂ := by
    intro item hitem
    obtain ⟨uid, huid⟩ := hupdates.complete htrue item hitem
    exact ⟨uid, ((catalogue_eq_some hσ₂).mp huid).1⟩
  refine ⟨hupdates.complete htrue, fun n hn => updates_other hupdates hn, ?_⟩
  refine h'.invariant (I := (· = σ₂)) ?_ rfl
  intro r hr t t' ht hsync'
  subst ht
  have hr := hlater r hr
  exact syncs_eq_self hσ₂ (by rw [hr]; exact hrun) (by rw [hr]; exact hin) hsync'

/-- The registry of a later run, which lists both providers and then is lost. -/
def lostRegistry : Registry := fun n _ =>
  if n = 0 then .ok { status := 200, providers := .ok (sampleStore₂.entries.map listed) }
  else .error .connectionError

/-- The store after an update by the later run that was executed, but not
answered. -/
def sampleStore₃ : Store := sampleStore₂.set "a" { recas .openstack with isPublic := true }

theorem syncs_lostRun : Syncs providersUrl sampleStore₂ failingRun sampleStore₃ := by
  refine ⟨lostRegistry, rfl, ?_⟩
  have hattempts : (updateDatabase lostRegistry providersUrl failingRun.items failingRun.token
      failingRun.timeout {}).2.attempts =
        [.get, .put (storedRecas "a" .openstack) { recas .openstack with isPublic := true }] := rfl
  rw [hattempts]
  refine Steps.cons_iff.mpr ⟨sampleStore₂, exchange_listing _ sampleStore₂, ?_⟩
  refine Steps.cons_iff.mpr ⟨sampleStore₃, ?_, .nil _⟩
  exact exchange_lost _ (σ := sampleStore₂) (i := storedRecas "a" .openstack) _ rfl .connectionError

/-- A run fails, the next one returns `True`, and a later one fails again. -/
theorem history_converges_sample :
    (∀ item ∈ sampleItems, ∃ uid, catalogue sampleStore₂ item.name = some (uid, item)) ∧
      (∀ n, (∀ item ∈ sampleItems, item.name ≠ n) →
        catalogue sampleStore₂ n = catalogue sampleStore₁ n) ∧ sampleStore₃ = sampleStore₂ := by
  have hcoherent : ∀ r ∈ [failingRun], Coherent sampleTypes r.items :=
    List.forall_mem_singleton.mpr coherent_sampleItems
  have hlater : ∀ r ∈ [failingRun], r.items = succeedingRun.items := List.forall_mem_singleton.mpr rfl
  exact history_converges hcoherent coherent_sampleItems consistent_sampleStore
    (.cons syncs_failingRun (.nil _)) syncs_succeedingRun rfl hlater (.cons syncs_lostRun (.nil _))

end

end FRF.Proof
