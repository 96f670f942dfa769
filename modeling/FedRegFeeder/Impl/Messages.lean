import FedRegFeeder.Framework.Dict
import FedRegFeeder.Impl.KafkaConn

/-!
# The dictionaries of messages

`to_dict` of `src/providers/openstack.py` and `src/providers/k8s.py` and
`Producer.build_message` of `src/kafka_conn.py`, key by key. Which keys a
message has is decided by the keys that are popped and by `**data`, which
stores whatever is left after the other fields.
-/

namespace FRF.Impl

open Py (PyError)
open Framework (Dict)

/-- A value in a dictionary. What `.dict()` makes of a model is the model. -/
inductive DictValue where
  | string (s : Option String)
  | number (q : ℚ)
  | providerType (t : ProviderType)
  | providerConf (p : Provider)
  | issuer (i : Issuer)
  | project (p : ProjectCreate)
  | blockStorageServices (l : List BlockStorageServiceCreateExtended)
  | computeServices (l : List ComputeServiceCreateExtended)
  | identityServices (l : List IdentityServiceCreate)
  | networkServices (l : List NetworkServiceCreateExtended)
  | objectStoreServices (l : List ObjectStoreServiceCreateExtended)
deriving DecidableEq

namespace DictValue

def providerConf? : DictValue → Option Provider
  | providerConf p => some p
  | _ => none

def issuer? : DictValue → Option Issuer
  | issuer i => some i
  | _ => none

def project? : DictValue → Option ProjectCreate
  | project p => some p
  | _ => none

def identityServices? : DictValue → Option (List IdentityServiceCreate)
  | identityServices l => some l
  | _ => none

end DictValue

/-- `to_dict`, in the order of its keys. -/
def ConnectionDict.dict (data : ConnectionDict) : Dict String DictValue :=
  .ofList [("provider_conf", .providerConf data.providerConf),
    ("issuer", .issuer data.issuer),
    ("project", .project data.project),
    ("block_storage_services", .blockStorageServices data.blockStorageServices),
    ("compute_services", .computeServices data.computeServices),
    ("identity_services", .identityServices data.identityServices),
    ("network_services", .networkServices data.networkServices),
    ("object_store_services", .objectStoreServices data.objectStoreServices)]

/-- `data.pop(key)`, for a value of the kind that is read from it. -/
def popAs {α : Type} (kind : DictValue → Option α) (data : Dict String DictValue) (key : String) :
    Except PyError (α × Dict String DictValue) :=
  match data.pop key with
  | (none, _) => .error .keyError
  | (some v, data) =>
    match kind v with
    | none => .error .typeError
    | some a => .ok (a, data)

namespace Producer

/-- The fields of a message before `**data`; `timestamp` and `issuerAudience` are
those that only some versions have. -/
def messageFields (providerConf : Provider) (issuer : Issuer) (project : ProjectCreate)
    (identityServices : List IdentityServiceCreate) (msgVersion : String)
    (timestamp : List (String × DictValue))
    (issuerAudience : AuthMethod → List (String × DictValue)) :
    Except PyError (List (String × DictValue)) := do
  let identityService ← Py.index0 identityServices
  let region ← Py.index0 providerConf.regions
  let identityProvider ← Py.index0 providerConf.identityProviders
  let userGroup ← Py.index0 issuer.userGroups
  return List.flatten [
    [("msg_version", .string msgVersion)],
    timestamp,
    [("provider_name", .string providerConf.name),
      ("provider_type", .providerType providerConf.type),
      ("identity_endpoint", .string identityService.endpoint),
      ("region_name", .string region.name),
      ("overbooking_cpu", .number region.overbookingCpu),
      ("overbooking_ram", .number region.overbookingRam),
      ("bandwidth_in", .number region.bandwidthIn),
      ("bandwidth_out", .number region.bandwidthOut),
      ("issuer_endpoint", .string issuer.endpoint),
      ("issuer_name", .string identityProvider.idpName),
      ("issuer_protocol", .string identityProvider.protocol)],
    issuerAudience identityProvider,
    [("user_group", .string userGroup.name), ("project_id", .string project.uuid)]]

/-- `build_message`. -/
def buildDict (data : Dict String DictValue) (msgVersion now : String) :
    Except PyError (Dict String DictValue) := do
  let (providerConf, data) ← popAs DictValue.providerConf? data "provider_conf"
  let (issuer, data) ← popAs DictValue.issuer? data "issuer"
  let (project, data) ← popAs DictValue.project? data "project"
  let (identityServices, data) ← popAs DictValue.identityServices? data "identity_services"
  let fields := messageFields providerConf issuer project identityServices msgVersion
  if msgVersion = "1.2.0" then
    return Dict.ofList ((← fields [] fun _ => []) ++ data.entries)
  else if msgVersion = "1.3.0" then
    return Dict.ofList ((← fields [("timestamp", .string now)] fun _ => []) ++ data.entries)
  else if msgVersion = "1.4.0" then
    return Dict.ofList ((← fields [("timestamp", .string now)] fun identityProvider =>
      [("issuer_audience", .string identityProvider.audience)]) ++ data.entries)
  else .error (.valueError "Invalid message version: %s")

end Producer

/-- The keys and values of a message. -/
def KafkaMessage.entries (m : KafkaMessage) : List (String × DictValue) :=
  List.flatten [
    [("msg_version", .string m.msgVersion)],
    Option.toList (m.timestamp.map fun t => ("timestamp", .string (some t))),
    [("provider_name", .string m.providerName),
      ("provider_type", .providerType m.providerType),
      ("identity_endpoint", .string m.identityEndpoint),
      ("region_name", .string m.regionName),
      ("overbooking_cpu", .number m.overbookingCpu),
      ("overbooking_ram", .number m.overbookingRam),
      ("bandwidth_in", .number m.bandwidthIn),
      ("bandwidth_out", .number m.bandwidthOut),
      ("issuer_endpoint", .string m.issuerEndpoint),
      ("issuer_name", .string m.issuerName),
      ("issuer_protocol", .string m.issuerProtocol)],
    Option.toList (m.issuerAudience.map fun a => ("issuer_audience", .string a)),
    [("user_group", .string m.userGroup),
      ("project_id", .string m.projectId),
      ("block_storage_services", .blockStorageServices m.blockStorageServices),
      ("compute_services", .computeServices m.computeServices),
      ("network_services", .networkServices m.networkServices),
      ("object_store_services", .objectStoreServices m.objectStoreServices)]]

/-- A message as a dictionary. -/
def KafkaMessage.dict (m : KafkaMessage) : Dict String DictValue := .ofList m.entries

end FRF.Impl
