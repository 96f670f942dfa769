import FedRegFeeder.Impl.FedRegConn

/-!
# Runs of the registry client

What one request makes of its answer is its `effect`: it raises, or it goes on
having recorded an error or not. The requests of a run of `update_database` are
planned by the stored providers and the items alone (`writes`), so a run is
read off the answers to them:

* `updateItems_ok`: when no request raises, all are sent, and an error is
  recorded if one of them recorded it;
* `updateItems_error`: otherwise the first request that raises ends the run;
* `updateDatabase_ok`, `updateDatabase_error`: what `update_database` returns
  then.
-/

namespace FRF.Spec

open FRF.Impl
open Py (PyError)

/-- The bodies of the answers are what their statuses promise. -/
structure WellFormed (registry : Registry) : Prop where
  providers : ∀ n m r, registry n m = .ok r → m.method = .get → r.status = 200 →
    ∃ l, r.providers = .ok l
  created : ∀ n m r, registry n m = .ok r → m.method = .post → r.status = 201 →
    ∃ p, r.provider = .ok p
  updated : ∀ n m r, registry n m = .ok r → m.method = .put → r.status = 200 →
    ∃ p, r.provider = .ok p
  json : ∀ n m r, registry n m = .ok r → m.method = .post ∨ m.method = .put → r.status = 422 →
    r.json = .ok ()

/-- The statuses of the answers a request waits for. -/
def Request.succeeded : Request → (status : Nat) → Bool
  | .get, status => status = 200
  | .post _, status => status = 201
  | .put _ _, status => status = 200 || status = 304
  | .delete _, status => status = 204

/-- The client of a run. -/
def client (url token : String) (timeout : Int) : CRUD where
  multiUrl := url
  readHeaders := (getReadWriteHeaders token).1
  writeHeaders := (getReadWriteHeaders token).2
  timeout := timeout

/-- How a client's request ends when it is the `n`-th of a run. -/
def answerTo (registry : Registry) (crud : CRUD) (n : Nat) (q : Request) : Except PyError Response :=
  registry n (crud.message q)

/-- The answer lists the stored providers. -/
def Lists (answer : Except PyError Response) (stored : List ProviderRead) : Prop :=
  ∃ r, answer = .ok r ∧ r.status = 200 ∧ r.providers = .ok stored

end FRF.Spec

namespace FRF.Proof

open FRF.Impl FRF.Spec
open Py (PyError)
open Framework Session

/-! ## One request -/

/-- What a client makes of an answer that is not the one it waits for. -/
def refusal (r : Response) : Except PyError Bool :=
  if r.status = 422 then .ok true
  else if 400 ≤ r.status ∧ r.status < 600 then .error (.httpError r.status) else .ok true

/-- What a request that writes makes of how it ends. -/
def effect : Request × Except PyError Response → Except PyError Bool
  | (_, .error e) => .error e
  | (q, .ok r) => if Request.succeeded q r.status then .ok false else refusal r

theorem send_run (registry : Registry) (crud : CRUD) (q : Request) (s : Log Request) :
    crud.send registry q s =
      (answerTo registry crud s.attempts.length q, s.append ⟨false, [q]⟩) := send_apply _ _ _

theorem recordError_run (s : Log Request) (q : Request) :
    (recordError : CRUDMethod Unit) (s.append ⟨false, [q]⟩) = (.ok (), s.append ⟨true, [q]⟩) := by
  show ((.ok (), Log.mk true (s.attempts ++ [q])) : Except PyError Unit × Log Request) =
    (.ok (), Log.mk (s.error || true) (s.attempts ++ [q]))
  rw [Bool.or_true]

section
variable {registry : Registry} {crud : CRUD} {r : Response} {q : Request} {s : Log Request}

/-- The end of `create` and `update`: the answer is not the one they wait for. -/
def refuse (resp : Response) : CRUDMethod (Option ProviderRead) :=
  if resp.status = 422 then do
    Session.ofExcept resp.json
    recordError
    return none
  else do
    CRUD.raiseError resp
    return none

theorem refuse_ok {b : Bool} (hj : r.status = 422 → r.json = .ok ()) (h : refusal r = .ok b) :
    refuse r (s.append ⟨false, [q]⟩) = (.ok none, s.append ⟨b, [q]⟩) := by
  simp only [refusal] at h
  split at h
  · rename_i h422
    cases h
    have hjson : Session.ofExcept r.json (s.append ⟨false, [q]⟩) =
        (.ok (), s.append ⟨false, [q]⟩) := by rw [hj h422]; rfl
    rw [refuse, if_pos h422, bind_ok _ hjson, bind_ok _ (recordError_run s q)]
    rfl
  · rename_i h422
    split at h
    · cases h
    · rename_i hno
      cases h
      have hraise : CRUD.raiseError r (s.append ⟨false, [q]⟩) = (.ok (), s.append ⟨true, [q]⟩) := by
        rw [CRUD.raiseError, if_neg hno, bind_ok _ (recordError_run s q)]
        rfl
      rw [refuse, if_neg h422, bind_ok _ hraise]
      rfl

theorem refuse_error {e : PyError} (h : refusal r = .error e) : (refuse r s).1 = .error e := by
  simp only [refusal] at h
  split at h
  · cases h
  · rename_i h422
    split at h
    · rename_i hstatus
      cases h
      rw [refuse, if_neg h422, CRUD.raiseError, if_pos hstatus]
      rfl
    · cases h

variable (hw : WellFormed registry)

include hw

theorem create_ok {item : ProviderCreateExtended} {b : Bool}
    (h : effect (.post item, answerTo registry crud s.attempts.length (.post item)) = .ok b) :
    ∃ p, crud.create registry item s = (.ok p, s.append ⟨b, [.post item]⟩) := by
  cases ha : answerTo registry crud s.attempts.length (.post item) with
  | error e => rw [ha] at h; cases h
  | ok r =>
    have hsend := send_run registry crud (.post item) s
    rw [ha] at h hsend
    rw [CRUD.create, bind_ok _ hsend]
    by_cases h201 : r.status = 201
    · obtain ⟨p, hp⟩ := hw.created _ _ r ha rfl h201
      rw [effect, Request.succeeded, if_pos (decide_eq_true h201)] at h
      cases h
      rw [if_pos h201, hp]
      exact ⟨some p, rfl⟩
    · rw [effect, Request.succeeded, if_neg (by simpa using h201)] at h
      rw [if_neg h201]
      exact ⟨none, refuse_ok (hw.json _ _ r ha (.inl rfl)) h⟩

omit hw in
theorem create_error {item : ProviderCreateExtended} {e : PyError}
    (h : effect (.post item, answerTo registry crud s.attempts.length (.post item)) = .error e) :
    (crud.create registry item s).1 = .error e := by
  have hsend := send_run registry crud (.post item) s
  cases ha : answerTo registry crud s.attempts.length (.post item) with
  | error e' =>
    rw [ha] at h hsend
    cases h
    rw [CRUD.create]
    exact bind_error _ (congrArg Prod.fst hsend)
  | ok r =>
    rw [ha] at h hsend
    rw [CRUD.create, bind_ok _ hsend]
    by_cases h201 : r.status = 201
    · rw [effect, Request.succeeded, if_pos (decide_eq_true h201)] at h
      cases h
    · rw [effect, Request.succeeded, if_neg (by simpa using h201)] at h
      rw [if_neg h201]
      exact refuse_error h

theorem update_ok {i : ProviderRead} {item : ProviderCreateExtended} {b : Bool}
    (h : effect (.put i item, answerTo registry crud s.attempts.length (.put i item)) = .ok b) :
    ∃ p, crud.update registry item i s = (.ok p, s.append ⟨b, [.put i item]⟩) := by
  cases ha : answerTo registry crud s.attempts.length (.put i item) with
  | error e => rw [ha] at h; cases h
  | ok r =>
    have hsend := send_run registry crud (.put i item) s
    rw [ha] at h hsend
    rw [CRUD.update, bind_ok _ hsend]
    by_cases h200 : r.status = 200
    · obtain ⟨p, hp⟩ := hw.updated _ _ r ha rfl h200
      rw [effect, Request.succeeded, if_pos (by simp [h200])] at h
      cases h
      rw [if_pos h200, hp]
      exact ⟨some p, rfl⟩
    · rw [if_neg h200]
      by_cases h304 : r.status = 304
      · rw [effect, Request.succeeded, if_pos (by simp [h304])] at h
        cases h
        rw [if_pos h304]
        exact ⟨none, rfl⟩
      · rw [effect, Request.succeeded, if_neg (by simp [h200, h304])] at h
        rw [if_neg h304]
        exact ⟨none, refuse_ok (hw.json _ _ r ha (.inr rfl)) h⟩

omit hw in
theorem update_error {i : ProviderRead} {item : ProviderCreateExtended} {e : PyError}
    (h : effect (.put i item, answerTo registry crud s.attempts.length (.put i item)) = .error e) :
    (crud.update registry item i s).1 = .error e := by
  have hsend := send_run registry crud (.put i item) s
  cases ha : answerTo registry crud s.attempts.length (.put i item) with
  | error e' =>
    rw [ha] at h hsend
    cases h
    rw [CRUD.update]
    exact bind_error _ (congrArg Prod.fst hsend)
  | ok r =>
    rw [ha] at h hsend
    rw [CRUD.update, bind_ok _ hsend]
    by_cases h200 : r.status = 200
    · rw [effect, Request.succeeded, if_pos (by simp [h200])] at h
      cases h
    · rw [if_neg h200]
      by_cases h304 : r.status = 304
      · rw [effect, Request.succeeded, if_pos (by simp [h304])] at h
        cases h
      · rw [effect, Request.succeeded, if_neg (by simp [h200, h304])] at h
        rw [if_neg h304]
        exact refuse_error h

end

/-! ## The plan of a run -/

/-- The request that writes an item, when `dbItem` is found under its name. -/
def requestFor (dbItem : Option ProviderRead) (item : ProviderCreateExtended) : Request :=
  match dbItem with
  | none => .post item
  | some i => if i.type ≠ item.type then .post item else .put i item

/-- The write request for an item, when `dbItems` is left of the stored
providers. -/
def nextRequest (dbItems : Dict String ProviderRead) (item : ProviderCreateExtended) : Request :=
  requestFor (dbItems.get? item.name) item

/-- The write requests of a run. -/
def writes (stored : List ProviderRead) (items : List ProviderCreateExtended) : List Request :=
  plan (fun d item => d.erase item.name) nextRequest
    (Dict.ofList (stored.map fun i => (i.name, i))) items

/-- The write requests of a run and how they end: the request that reads comes
before them. -/
def exchanged (registry : Registry) (crud : CRUD) (stored : List ProviderRead)
    (items : List ProviderCreateExtended) : List (Request × Except PyError Response) :=
  exchanges (answerTo registry crud) 1 (writes stored items)

/-- The write requests create or update. -/
theorem mem_writes {stored : List ProviderRead} {items : List ProviderCreateExtended} {q : Request}
    (h : q ∈ writes stored items) : (∃ item, q = .post item) ∨ ∃ i item, q = .put i item := by
  obtain ⟨d, item, rfl⟩ := mem_plan h
  simp only [nextRequest]
  cases d.get? item.name with
  | none => exact .inl ⟨item, rfl⟩
  | some i =>
    simp only [requestFor]
    split
    · exact .inl ⟨item, rfl⟩
    · exact .inr ⟨i, item, rfl⟩

section
variable {registry : Registry} {crud : CRUD} {s : Log Request} {stored : List ProviderRead}
  {items : List ProviderCreateExtended}

theorem writeItem_ok (hw : WellFormed registry) {dbItem : Option ProviderRead}
    {item : ProviderCreateExtended} {b : Bool}
    (h : effect (requestFor dbItem item,
      answerTo registry crud s.attempts.length (requestFor dbItem item)) = .ok b) :
    ∃ p, writeItem registry crud dbItem item s =
      (.ok p, s.append ⟨b, [requestFor dbItem item]⟩) := by
  cases dbItem with
  | none => exact create_ok hw h
  | some i =>
    simp only [requestFor] at h ⊢
    simp only [writeItem]
    split at h
    · rename_i ht
      rw [if_pos ht, if_pos ht]
      exact create_ok hw h
    · rename_i ht
      rw [if_neg ht, if_neg ht]
      exact update_ok hw h

theorem writeItem_error {dbItem : Option ProviderRead} {item : ProviderCreateExtended} {e : PyError}
    (h : effect (requestFor dbItem item,
      answerTo registry crud s.attempts.length (requestFor dbItem item)) = .error e) :
    (writeItem registry crud dbItem item s).1 = .error e := by
  cases dbItem with
  | none => exact create_error h
  | some i =>
    simp only [requestFor] at h
    simp only [writeItem]
    split at h
    · rename_i ht
      rw [if_pos ht]
      exact create_error h
    · rename_i ht
      rw [if_neg ht]
      exact update_error h

theorem updateItem_ok (hw : WellFormed registry) (dbItems : Dict String ProviderRead)
    (item : ProviderCreateExtended) (s : Log Request) (b : Bool)
    (h : effect (nextRequest dbItems item,
      answerTo registry crud s.attempts.length (nextRequest dbItems item)) = .ok b) :
    updateItem registry crud dbItems item s =
      (.ok (dbItems.erase item.name), s.append ⟨b, [nextRequest dbItems item]⟩) := by
  obtain ⟨p, hp⟩ := writeItem_ok hw h
  show (writeItem registry crud (dbItems.get? item.name) item >>=
    fun _ => pure (dbItems.erase item.name)) s = _
  rw [bind_ok _ hp]
  rfl

theorem updateItem_error (dbItems : Dict String ProviderRead) (item : ProviderCreateExtended)
    (s : Log Request) (e : PyError) (h : effect (nextRequest dbItems item,
      answerTo registry crud s.attempts.length (nextRequest dbItems item)) = .error e) :
    (updateItem registry crud dbItems item s).1 = .error e := by
  show ((writeItem registry crud (dbItems.get? item.name) item >>=
    fun _ => pure (dbItems.erase item.name)) s).1 = _
  exact bind_error _ (writeItem_error h)

/-! ## A run -/

theorem read_ok (h : Lists (answerTo registry crud 0 .get) stored) :
    crud.read registry {} = (.ok (some stored), ⟨false, [.get]⟩) := by
  obtain ⟨r, hr, h200, hstored⟩ := h
  have hsend := send_run registry crud .get {}
  rw [show answerTo registry crud (List.length ([] : List Request)) .get = .ok r from hr] at hsend
  rw [CRUD.read, bind_ok _ hsend, if_pos h200, hstored]
  rfl

theorem updateItems_ok (hw : WellFormed registry) (hg : Lists (answerTo registry crud 0 .get) stored)
    {rs : List Bool} (h : (exchanged registry crud stored items).mapM effect = .ok rs) :
    updateItems registry crud items {} =
      (.ok (), ⟨rs.any id, .get :: writes stored items⟩) := by
  rw [updateItems, bind_ok _ (read_ok hg)]
  show (items.foldlM (updateItem registry crud) _ >>= fun _ => pure ()) _ = _
  rw [bind_ok _ (foldlM_exchanges_ok (updateItem_ok hw) (s := ⟨false, [.get]⟩) h)]
  rfl

/-- A run stops at the first write that raises. -/
theorem updateItems_error (hw : WellFormed registry)
    (hg : Lists (answerTo registry crud 0 .get) stored) {e : PyError}
    (h : (exchanged registry crud stored items).mapM effect = .error e) :
    (updateItems registry crud items {}).1 = .error e := by
  rw [updateItems, bind_ok _ (read_ok hg)]
  show ((items.foldlM (updateItem registry crud) _ >>= fun _ => pure ()) _).1 = _
  exact bind_error _ (foldlM_exchanges_error (updateItem_ok hw) updateItem_error
    (s := ⟨false, [.get]⟩) h)

/-- What a run raises when it is not told the stored providers: `read` returns
nothing on a status that is neither 200 nor an error. -/
def readFailure : Except PyError Response → PyError
  | .error e => e
  | .ok r => if 400 ≤ r.status ∧ r.status < 600 then .httpError r.status else .typeError

theorem updateItems_readFailure (h : ∀ r, answerTo registry crud 0 .get = .ok r → r.status ≠ 200) :
    (updateItems registry crud items {}).1 =
      .error (readFailure (answerTo registry crud 0 .get)) := by
  have hsend : crud.send registry .get {} =
      (answerTo registry crud 0 .get, ⟨false, [.get]⟩) := send_run registry crud .get {}
  cases ha : answerTo registry crud 0 .get with
  | error e =>
    rw [ha] at hsend
    rw [updateItems, CRUD.read]
    exact bind_error _ (bind_error _ (congrArg Prod.fst hsend))
  | ok r =>
    rw [ha] at hsend
    rw [readFailure]
    by_cases hstatus : 400 ≤ r.status ∧ r.status < 600
    · have hread : (crud.read registry {}).1 = .error (.httpError r.status) := by
        rw [CRUD.read, bind_ok _ hsend, if_neg (h r ha), CRUD.raiseError, if_pos hstatus]
        rfl
      rw [if_pos hstatus, updateItems]
      exact bind_error _ hread
    · have hread : crud.read registry {} = (.ok none, ⟨true, [.get]⟩) := by
        rw [CRUD.read, bind_ok _ hsend, if_neg (h r ha), CRUD.raiseError, if_neg hstatus]
        rfl
      rw [if_neg hstatus, updateItems, bind_ok _ hread]
      rfl

/-- What `update_database` makes of an exception. -/
def caught : PyError → Except PyError Bool
  | .connectionError | .httpError _ => .ok false
  | e => .error e

variable {token : String} (ht : token ≠ "") (url : String) (timeout : Int)

include ht

theorem updateDatabase_eq : updateDatabase registry url items token timeout =
    tryCatch (do updateItems registry (client url token timeout) items; return !(← get).error)
      connectionFailed := by
  rw [updateDatabase, if_neg ht]
  rfl

theorem updateDatabase_ok {b : Bool} {l : List Request}
    (h : updateItems registry (client url token timeout) items {} = (.ok (), ⟨b, l⟩)) :
    updateDatabase registry url items token timeout {} = (.ok !b, ⟨b, l⟩) := by
  rw [updateDatabase_eq ht]
  refine tryCatch_ok _ ?_
  rw [bind_ok _ h]
  rfl

theorem updateDatabase_error {e : PyError}
    (h : (updateItems registry (client url token timeout) items {}).1 = .error e) :
    (updateDatabase registry url items token timeout {}).1 = caught e := by
  rw [updateDatabase_eq ht, tryCatch_error _ (bind_error _ h)]
  cases e <;> rfl

end

end FRF.Proof
