import FedRegFeeder.Framework.Ends
import FedRegFeeder.Framework.Steps
import FedRegFeeder.Proof.Answers

/-!
# The registry as a store

What the Federation-Registry stores is a `Store`, and what it may do with a
request is `Serves`: it executes it or not, however the request ends, but an
answer with a status of success says the truth. So the answer to a write that
was executed may be lost. A `Run` of `update_database` is a sequence of such
exchanges (`Syncs`).

* `updateDatabase_attempts`, `updateDatabase_true`: the requests of a run,
  however they end, and those of a run that returns `True`;
* `exchange_get`, `exchange_post`, `exchange_put`: what a request leaves in the
  store.
-/

namespace FRF.Spec

open FRF.Impl
open Py (PyError)
open Framework

/-- The data of the stored providers, by the uid the registry gave each. -/
abbrev Store := Dict String ProviderCreateExtended

/-- A stored provider as the registry lists it. -/
def listed (e : String × ProviderCreateExtended) : ProviderRead where
  uid := e.1
  name := e.2.name
  type := e.2.type

/-- The registry at `url` executes a message. -/
inductive Executes (url : String) (σ : Store) (m : Message) : Store → Prop
  | read : m.method = .get → Executes url σ m σ
  | create {uid : String} {data : ProviderCreateExtended} : m.method = .post → m.url = url →
    m.json = some data → σ.get? uid = none → Executes url σ m (σ.set uid data)
  | update {uid : String} {old data : ProviderCreateExtended} : m.method = .put →
    m.url = Py.pathJoin url "" ++ uid → m.json = some data → σ.get? uid = some old →
    Executes url σ m (σ.set uid data)
  | remove {uid : String} : m.method = .delete → m.url = Py.pathJoin url "" ++ uid →
    Executes url σ m (σ.erase uid)

/-- What the registry at `url` may do with a message, and how the request may
end then. -/
structure Serves (url : String) (σ : Store) (m : Message) (answer : Except PyError Response)
    (σ' : Store) : Prop where
  executes : σ' = σ ∨ Executes url σ m σ'
  lists : ∀ r, answer = .ok r → m.method = .get → r.status = 200 →
    ∃ l, r.providers = .ok l ∧ l.Perm (σ.entries.map listed)
  created : ∀ r, answer = .ok r → m.method = .post → r.status = 201 → Executes url σ m σ'
  updated : ∀ r, answer = .ok r → m.method = .put → r.status = 200 ∨ r.status = 304 →
    Executes url σ m σ'
  unmodified : ∀ r, answer = .ok r → m.method = .put → r.status = 304 → σ' = σ

/-- A request of a client of the registry, and how it ends. -/
def Exchange (crud : CRUD) (σ : Store) (x : Request × Except PyError Response) (σ' : Store) : Prop :=
  Serves crud.multiUrl σ (crud.message x.1) x.2 σ'

/-- A run of `update_database`: what it is called with, and how it ends. -/
structure Run where
  items : List ProviderCreateExtended
  token : String
  timeout : Int
  result : Except PyError Bool

/-- The run takes the registry at `url` from one store to another. -/
def Syncs (url : String) (σ : Store) (run : Run) (σ' : Store) : Prop :=
  ∃ registry, run.result = (updateDatabase registry url run.items run.token run.timeout {}).1 ∧
    Steps (Exchange (client url run.token run.timeout)) σ
      (Session.exchanges (answerTo registry (client url run.token run.timeout)) 0
        (updateDatabase registry url run.items run.token run.timeout {}).2.attempts) σ'

end FRF.Spec

namespace FRF.Proof

open FRF.Impl FRF.Spec
open Py (PyError)
open Framework Session

/-! ## The requests of a run -/

/-- An operation that sends one request: if it returns and no error has been
recorded, the request was accepted. -/
def SendsOne (answer : Nat → Request → Except PyError Response) (q : Request) (s : Log Request)
    {α : Type} (x : CRUDMethod α) : Prop :=
  Ends x s
    (fun _ s' => s'.attempts = s.attempts ++ [q] ∧
      (s'.error = false → s.error = false ∧ Accepted (q, answer s.attempts.length q)))
    (fun _ s' => s'.attempts = s.attempts ++ [q])

section
variable {registry : Registry} {crud : CRUD} {s : Log Request}

theorem raiseError_ends {r : Response} {Q : Unit → Log Request → Prop}
    {E : PyError → Log Request → Prop} (hQ : Q () ⟨true, s.attempts⟩) (hE : ∀ e, E e ⟨true, s.attempts⟩) :
    Ends (CRUD.raiseError r) s Q E := by
  refine Ends.bind (Ends.recordError ?_)
  split
  · exact Ends.throw (hE _)
  · exact Ends.pure hQ

theorem connectionFailed_ends {e : PyError} {Q : Bool → Log Request → Prop}
    {E : PyError → Log Request → Prop} (hQ : Q false s) (hE : E e s) :
    Ends (connectionFailed e) s Q E := by
  cases e with
  | connectionError => exact Ends.pure hQ
  | httpError status => exact Ends.pure hQ
  | _ => exact Ends.throw hE

theorem create_sends (item : ProviderCreateExtended) :
    SendsOne (answerTo registry crud) (.post item) s (crud.create registry item) := by
  refine Ends.bind (Ends.send (fun r hr => ?_) fun e _ => rfl)
  split
  · rename_i h201
    refine Ends.bind (Ends.ofExcept (fun p _ => Ends.pure ⟨rfl, fun h => ⟨h, ?_⟩⟩) fun e _ => rfl)
    rw [show answerTo registry crud s.attempts.length (.post item) = .ok r from hr]
    exact decide_eq_true h201
  · split
    · exact Ends.bind (Ends.ofExcept (fun _ _ => Ends.bind (Ends.recordError
        (Ends.pure ⟨rfl, nofun⟩))) fun _ _ => rfl)
    · exact Ends.bind (raiseError_ends (Ends.pure ⟨rfl, nofun⟩) fun _ => rfl)

theorem update_sends (item : ProviderCreateExtended) (i : ProviderRead) :
    SendsOne (answerTo registry crud) (.put i item) s (crud.update registry item i) := by
  refine Ends.bind (Ends.send (fun r hr => ?_) fun e _ => rfl)
  have hr : answerTo registry crud s.attempts.length (.put i item) = .ok r := hr
  split
  · rename_i h200
    refine Ends.bind (Ends.ofExcept (fun p _ => Ends.pure ⟨rfl, fun h => ⟨h, ?_⟩⟩) fun e _ => rfl)
    rw [hr]
    exact Bool.or_eq_true_iff.mpr (.inl (decide_eq_true h200))
  · split
    · rename_i h304
      refine Ends.pure ⟨rfl, fun h => ⟨h, ?_⟩⟩
      rw [hr]
      exact Bool.or_eq_true_iff.mpr (.inr (decide_eq_true h304))
    · split
      · exact Ends.bind (Ends.ofExcept (fun _ _ => Ends.bind (Ends.recordError
          (Ends.pure ⟨rfl, nofun⟩))) fun _ _ => rfl)
      · exact Ends.bind (raiseError_ends (Ends.pure ⟨rfl, nofun⟩) fun _ => rfl)

theorem writeItem_sends (dbItem : Option ProviderRead) (item : ProviderCreateExtended) :
    SendsOne (answerTo registry crud) (requestFor dbItem item) s
      (writeItem registry crud dbItem item) := by
  cases dbItem with
  | none => exact create_sends item
  | some i =>
    simp only [requestFor, writeItem]
    split
    · exact create_sends item
    · exact update_sends item i

/-- All requests were accepted. -/
def AllAccepted (answer : Nat → Request → Except PyError Response) (l : List Request) : Prop :=
  ∀ x ∈ exchanges answer 0 l, Accepted x

theorem allAccepted_append {answer : Nat → Request → Except PyError Response} {l : List Request}
    {q : Request} (h : AllAccepted answer l) (hq : Accepted (q, answer l.length q)) :
    AllAccepted answer (l ++ [q]) := by
  intro x hx
  rw [exchanges_append, Nat.zero_add] at hx
  rcases List.mem_append.mp hx with hx | hx
  · exact h x hx
  · rw [List.mem_singleton.mp hx]
    exact hq

/-- Before the items `l`, with `dbItems` left of the stored providers: what was
sent and what is to be sent are the requests of the run. -/
def OnPlan (answer : Nat → Request → Except PyError Response) (requests : List Request)
    (l : List ProviderCreateExtended) (dbItems : Dict String ProviderRead) (s : Log Request) : Prop :=
  s.attempts ++ plan (fun d item => d.erase item.name) nextRequest dbItems l = requests ∧
    (s.error = false → AllAccepted answer s.attempts)

theorem updateItem_onPlan {requests : List Request} (item : ProviderCreateExtended)
    (l : List ProviderCreateExtended) (dbItems : Dict String ProviderRead) (s : Log Request)
    (h : OnPlan (answerTo registry crud) requests (item :: l) dbItems s) :
    Ends (updateItem registry crud dbItems item) s
      (OnPlan (answerTo registry crud) requests l) (fun _ s' => s'.attempts <+: requests) := by
  obtain ⟨hrequests, haccepted⟩ := h
  have hplan : s.attempts ++ [nextRequest dbItems item] ++
      plan (fun d item => d.erase item.name) nextRequest (dbItems.erase item.name) l = requests := by
    rw [← hrequests, List.append_assoc]
    rfl
  refine Ends.bind ((writeItem_sends (dbItems.get? item.name) item).mono ?_ ?_)
  · intro _ s' hs'
    obtain ⟨hsent, hok⟩ := hs'
    refine Ends.pure ⟨?_, fun herror => ?_⟩
    · rw [hsent]
      exact hplan
    · obtain ⟨hs, hq⟩ := hok herror
      rw [hsent]
      exact allAccepted_append (haccepted hs) hq
  · intro _ s' hs'
    rw [hs', ← hplan]
    exact List.prefix_append _ _

end

section
variable (registry : Registry) (url token : String) (timeout : Int)
  (items : List ProviderCreateExtended)

/-- The requests of a run once the stored providers are known. -/
def Planned (registry : Registry) (crud : CRUD) (items : List ProviderCreateExtended)
    (requests : List Request) : Prop :=
  ∃ stored, Lists (answerTo registry crud 0 .get) stored ∧ requests = .get :: writes stored items

/-- Only the request that reads was sent, or an initial segment of those planned
then. -/
def Attempted (registry : Registry) (crud : CRUD) (items : List ProviderCreateExtended)
    (l : List Request) : Prop :=
  l = [.get] ∨ ∃ requests, Planned registry crud items requests ∧ l <+: requests

theorem updateItems_ends (crud : CRUD) :
    Ends (updateItems registry crud items) {}
      (fun _ s => Planned registry crud items s.attempts ∧
        (s.error = false → AllAccepted (answerTo registry crud) s.attempts))
      (fun _ s => Attempted registry crud items s.attempts) := by
  refine Ends.bind (Ends.bind (Ends.send (fun r hr => ?_) fun _ _ => .inl rfl))
  split
  · rename_i h200
    refine Ends.bind (Ends.ofExcept (fun stored hstored => Ends.pure ?_) fun _ _ => .inl rfl)
    have hlists : Lists (answerTo registry crud 0 .get) stored := ⟨r, hr, h200, hstored⟩
    have hplanned : Planned registry crud items (.get :: writes stored items) := ⟨stored, hlists, rfl⟩
    have hget : Accepted (.get, answerTo registry crud 0 .get) := by
      rw [show answerTo registry crud 0 .get = .ok r from hr]
      exact decide_eq_true h200
    have hstart : OnPlan (answerTo registry crud) (.get :: writes stored items) items
        (Dict.ofList (stored.map fun i => (i.name, i))) ⟨false, [.get]⟩ :=
      ⟨rfl, fun _ => allAccepted_append (l := []) (fun x hx => by cases hx) hget⟩
    refine Ends.bind ((Ends.foldlM updateItem_onPlan hstart).mono ?_ ?_)
    · intro d s hs
      obtain ⟨hrequests, haccepted⟩ := hs
      refine Ends.pure ⟨?_, haccepted⟩
      rw [show s.attempts = .get :: writes stored items from (List.append_nil _).symm.trans hrequests]
      exact hplanned
    · intro _ s hs
      exact .inr ⟨_, hplanned, hs⟩
  · exact Ends.bind (raiseError_ends (Ends.pure (Ends.throw (.inl rfl))) fun _ => .inl rfl)

/-- However the requests of a run end, these are the requests. -/
theorem updateDatabase_attempts :
    (updateDatabase registry url items token timeout {}).2.attempts = [] ∨
      Attempted registry (client url token timeout) items
        (updateDatabase registry url items token timeout {}).2.attempts := by
  by_cases ht : token = ""
  · left
    rw [updateDatabase, if_pos ht]
    rfl
  · right
    rw [updateDatabase_eq ht]
    refine Ends.log (P := fun s => Attempted registry (client url token timeout) items s.attempts)
      (Ends.tryCatch (Ends.bind ((updateItems_ends registry items _).mono ?_ ?_)))
    · intro _ s hs
      exact .inr ⟨_, hs.1, List.prefix_rfl⟩
    · intro e s hs
      exact connectionFailed_ends hs hs

/-- A run that returns `True` sends all its requests, and each is accepted. -/
theorem updateDatabase_true
    (h : (updateDatabase registry url items token timeout {}).1 = .ok true) :
    Planned registry (client url token timeout) items
        (updateDatabase registry url items token timeout {}).2.attempts ∧
      AllAccepted (answerTo registry (client url token timeout))
        (updateDatabase registry url items token timeout {}).2.attempts := by
  have ht : token ≠ "" := by
    intro ht
    rw [updateDatabase, if_pos ht] at h
    cases h
  have hends : Ends (updateDatabase registry url items token timeout) {}
      (fun b s => b = true → Planned registry (client url token timeout) items s.attempts ∧
        AllAccepted (answerTo registry (client url token timeout)) s.attempts)
      (fun _ _ => True) := by
    rw [updateDatabase_eq ht]
    refine Ends.tryCatch (Ends.bind ((updateItems_ends registry items _).mono ?_ ?_))
    · intro _ s hs hb
      exact ⟨hs.1, hs.2 (by simpa using hb)⟩
    · intro e s _
      exact connectionFailed_ends (fun hb => by cases hb) trivial
  exact hends.ok (Prod.ext h rfl) rfl

end

/-! ## What a request leaves in the store -/

section
variable {crud : CRUD} {σ σ' : Store} {i : ProviderRead} {item : ProviderCreateExtended}
  {o : Except PyError Response}

theorem executes_get (h : Executes crud.multiUrl σ (crud.message .get) σ') : σ' = σ := by
  cases h with
  | read => rfl
  | create hm => cases hm
  | update hm => cases hm
  | remove hm => cases hm

theorem executes_post (h : Executes crud.multiUrl σ (crud.message (.post item)) σ') :
    ∃ uid, σ.get? uid = none ∧ σ' = σ.set uid item := by
  cases h with
  | read hm => cases hm
  | create _ _ hdata hfresh =>
    cases hdata
    exact ⟨_, hfresh, rfl⟩
  | update hm => cases hm
  | remove hm => cases hm

/-- The URL of an update tells which provider it is about. -/
theorem executes_put (h : Executes crud.multiUrl σ (crud.message (.put i item)) σ') :
    ∃ old, σ.get? i.uid = some old ∧ σ' = σ.set i.uid item := by
  cases h with
  | read hm => cases hm
  | create hm => cases hm
  | @update uid old _ _ hurl hdata hold =>
    cases hdata
    have huid : i.uid = uid := (String.append_right_inj _).mp hurl
    rw [huid]
    exact ⟨old, hold, rfl⟩
  | remove hm => cases hm

theorem exchange_get (h : Exchange crud σ (.get, o) σ') :
    σ' = σ ∧ ∀ stored, Lists o stored → stored.Perm (σ.entries.map listed) := by
  constructor
  · exact h.executes.elim id executes_get
  · intro stored hlists
    obtain ⟨r, hr, h200, hstored⟩ := hlists
    obtain ⟨l, hl, hperm⟩ := h.lists r hr rfl h200
    rw [hstored] at hl
    rwa [Except.ok.inj hl]

theorem exchange_post (h : Exchange crud σ (.post item, o) σ') :
    (σ' = σ ∧ ¬ Accepted (.post item, o)) ∨ ∃ uid, σ.get? uid = none ∧ σ' = σ.set uid item := by
  by_cases ha : Accepted (.post item, o)
  · cases o with
    | error e => exact ha.elim
    | ok r => exact .inr (executes_post (h.created r rfl rfl (of_decide_eq_true ha)))
  · exact h.executes.imp (⟨·, ha⟩) executes_post

theorem exchange_put (h : Exchange crud σ (.put i item, o) σ') :
    (σ' = σ ∧ ¬ Accepted (.put i item, o)) ∨
      ∃ old, σ.get? i.uid = some old ∧ σ' = σ.set i.uid item := by
  by_cases ha : Accepted (.put i item, o)
  · cases o with
    | error e => exact ha.elim
    | ok r =>
      have hstatus : r.status = 200 ∨ r.status = 304 := by
        simpa [Accepted, Request.succeeded] using ha
      exact .inr (executes_put (h.updated r rfl rfl hstatus))
  · exact h.executes.imp (⟨·, ha⟩) executes_put

end

end FRF.Proof
