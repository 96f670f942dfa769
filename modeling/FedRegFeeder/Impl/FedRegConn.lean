import FedRegFeeder.Framework.Dict
import FedRegFeeder.Framework.Session
import FedRegFeeder.Impl.Models.Fedreg

/-!
# The Federation-Registry client

`src/fed_reg_conn.py`. How the requests of a run end is a parameter, a
`Registry`; the state of a `CRUD` object is its `error` attribute and, as a
ghost, the requests it has sent.
-/

namespace FRF.Impl

open Py (PyError)
open Framework (Dict Log Session)

/-- A request, with the stored provider it is about. -/
inductive Request where
  | get
  | post (data : ProviderCreateExtended)
  | put (oldData : ProviderRead) (newData : ProviderCreateExtended)
  | delete (item : ProviderRead)
deriving DecidableEq

inductive Method where
  | get | post | put | delete
deriving DecidableEq, Repr

/-- A call of `requests`. -/
structure Message where
  method : Method
  url : String
  headers : List (String × String)
  json : Option ProviderCreateExtended := none
  timeout : Int
deriving DecidableEq

/-- An answer, and what the program may read its body as: any JSON, a list of
`ProviderRead` or a `ProviderReadExtended`. -/
structure Response where
  status : Nat
  json : Except PyError Unit := .ok ()
  providers : Except PyError (List ProviderRead) := .error .typeError
  provider : Except PyError ProviderRead := .error .typeError

/-- How the `n`-th request of a run ends. -/
abbrev Registry := (n : Nat) → Message → Except PyError Response

/-- The attributes of a `CRUD` object that do not change. -/
structure CRUD where
  multiUrl : String
  readHeaders : List (String × String)
  writeHeaders : List (String × String)
  timeout : Int

/-- A method of a `CRUD` object. -/
abbrev CRUDMethod (α : Type) := Session Request PyError α

namespace CRUD

/-- `single_url.format(uid=uid)`, where `single_url` is `multi_url` joined with
a placeholder. -/
def singleUrl (crud : CRUD) (uid : String) : String := Py.pathJoin crud.multiUrl "" ++ uid

/-- The call of `requests` that makes a request. -/
def message (crud : CRUD) : Request → Message
  | .get => { method := .get, url := crud.multiUrl, headers := crud.readHeaders
              timeout := crud.timeout }
  | .post data => { method := .post, url := crud.multiUrl, headers := crud.writeHeaders
                    json := some data, timeout := crud.timeout }
  | .put oldData newData =>
    { method := .put, url := crud.singleUrl oldData.uid, headers := crud.writeHeaders
      json := some newData, timeout := crud.timeout }
  | .delete item => { method := .delete, url := crud.singleUrl item.uid
                      headers := crud.writeHeaders, timeout := crud.timeout }

/-- It returns when the status is not that of an error. -/
def raiseError (resp : Response) : CRUDMethod Unit := do
  Session.recordError
  if 400 ≤ resp.status ∧ resp.status < 600 then throw (.httpError resp.status) else return ()

variable (registry : Registry) (crud : CRUD)

def send (request : Request) : CRUDMethod Response :=
  Session.send (fun n r => registry n (crud.message r)) request

/-- Retrieve all providers from the Federation-Registry. -/
def read : CRUDMethod (Option (List ProviderRead)) := do
  let resp ← send registry crud .get
  if resp.status = 200 then do
    let providers ← Session.ofExcept resp.providers
    return some providers
  else do
    raiseError resp
    return none

/-- Create new instance. -/
def create (data : ProviderCreateExtended) : CRUDMethod (Option ProviderRead) := do
  let resp ← send registry crud (.post data)
  if resp.status = 201 then do
    let provider ← Session.ofExcept resp.provider
    return some provider
  else if resp.status = 422 then do
    Session.ofExcept resp.json
    Session.recordError
    return none
  else do
    raiseError resp
    return none

/-- Remove item. Nothing calls it. -/
def remove (item : ProviderRead) : CRUDMethod Unit := do
  let resp ← send registry crud (.delete item)
  if resp.status = 204 then return () else raiseError resp

/-- Update existing instance. -/
def update (newData : ProviderCreateExtended) (oldData : ProviderRead) :
    CRUDMethod (Option ProviderRead) := do
  let resp ← send registry crud (.put oldData newData)
  if resp.status = 200 then do
    let provider ← Session.ofExcept resp.provider
    return some provider
  else if resp.status = 304 then return none
  else if resp.status = 422 then do
    Session.ofExcept resp.json
    Session.recordError
    return none
  else do
    raiseError resp
    return none

end CRUD

/-- From an access token, create the read and write headers. -/
def getReadWriteHeaders (token : String) : List (String × String) × List (String × String) :=
  let readHeader := [("authorization", "Bearer " ++ token)]
  let writeHeader := readHeader ++ [("accept", "application/json"), ("content-type", "application/json")]
  (readHeader, writeHeader)

section
variable (registry : Registry) (crud : CRUD)

/-- Update the stored provider if it has the type of the item, otherwise create
a new one. -/
def writeItem (dbItem : Option ProviderRead) (item : ProviderCreateExtended) :
    CRUDMethod (Option ProviderRead) :=
  match dbItem with
  | none => crud.create registry item
  | some dbItem =>
    if dbItem.type ≠ item.type then crud.create registry item
    else crud.update registry item dbItem

/-- One turn of the loop of `update_database`. -/
def updateItem (dbItems : Dict String ProviderRead) (item : ProviderCreateExtended) :
    CRUDMethod (Dict String ProviderRead) := do
  let (dbItem, dbItems) := dbItems.pop item.name
  let _ ← writeItem registry crud dbItem item
  return dbItems

/-- The body of the `try` of `update_database`. The stored providers that are
left are only listed in the logs. -/
def updateItems (items : List ProviderCreateExtended) : CRUDMethod Unit := do
  let stored ← crud.read registry
  match stored with
  | none => throw .typeError
  | some stored => do
    let _ ← items.foldlM (updateItem registry crud) (Dict.ofList (stored.map fun i => (i.name, i)))
    return ()

end

/-- What the exceptions of `requests` that `update_database` catches return. -/
def connectionFailed : PyError → CRUDMethod Bool
  | .connectionError | .httpError _ => return false
  | e => throw e

/-- `True` if no errors happened. -/
def updateDatabase (registry : Registry) (providersUrl : String)
    (items : List ProviderCreateExtended) (token : String) (timeout : Int) : CRUDMethod Bool :=
  if token = "" then return false
  else
    let (readHeaders, writeHeaders) := getReadWriteHeaders token
    let crud : CRUD := { multiUrl := providersUrl, readHeaders, writeHeaders, timeout }
    tryCatch (do updateItems registry crud items; return !(← get).error) connectionFailed

end FRF.Impl
