import FedRegFeeder.Framework.Session
import FedRegFeeder.Impl.Providers.Data
import FedRegFeeder.Impl.Utils.Settings

/-!
# Messages to Kafka

`src/kafka_conn.py`. A message is the dictionary that `build_message` returns;
what the client library does with a message, and when its producer is created,
flushed and closed, is a `Kafka`. The arguments with which a producer is
created are not modelled.
-/

namespace FRF.Impl

open Py (PyError)
open Framework (Log Session)

/-- The dictionary that `to_dict` makes of the data of a connection. -/
structure ConnectionDict where
  providerConf : Provider
  issuer : Issuer
  project : ProjectCreate
  blockStorageServices : List BlockStorageServiceCreateExtended
  computeServices : List ComputeServiceCreateExtended
  identityServices : List IdentityServiceCreate
  networkServices : List NetworkServiceCreateExtended
  objectStoreServices : List ObjectStoreServiceCreateExtended
deriving DecidableEq, Repr

/-- `OpenstackData.to_dict` and `KubernetesData.to_dict`. -/
def ConnectionData.toDict (data : ConnectionData) : ConnectionDict where
  providerConf := data.providerConf
  issuer := data.issuer
  project := data.project
  blockStorageServices := data.blockStorageServices
  computeServices := data.computeServices
  identityServices := data.identityServices
  networkServices := data.networkServices
  objectStoreServices := data.objectStoreServices

/-- A message; the fields that only some versions have are optional. -/
structure KafkaMessage where
  msgVersion : String
  timestamp : Option String := none
  providerName : String
  providerType : ProviderType
  identityEndpoint : String
  regionName : String
  overbookingCpu : ℚ
  overbookingRam : ℚ
  bandwidthIn : ℚ
  bandwidthOut : ℚ
  issuerEndpoint : String
  issuerName : Option String
  issuerProtocol : Option String
  issuerAudience : Option (Option String) := none
  userGroup : String
  projectId : String
  blockStorageServices : List BlockStorageServiceCreateExtended
  computeServices : List ComputeServiceCreateExtended
  networkServices : List NetworkServiceCreateExtended
  objectStoreServices : List ObjectStoreServiceCreateExtended
deriving DecidableEq, Repr

/-- What the client library does: create a producer, accept the `n`-th message
for a topic, and flush and close. -/
structure Kafka where
  create : Except PyError Unit
  send : (n : Nat) → (topic : String) → KafkaMessage → Except PyError Unit
  close : Except PyError Unit

namespace Producer

/-- `Producer.__init__`. -/
def init (kafka : Kafka) (settings : Settings) : Except PyError Unit :=
  if settings.kafkaSslEnable ∧ settings.kafkaSslPassword = none then
    .error (.valueError "KAFKA_SSL_PASSWORD can't be None when KAFKA_SSL_ENABLE is True")
  else kafka.create

/-- The dictionary that all versions share. -/
def commonMessage (data : ConnectionDict) (msgVersion : String) : Except PyError KafkaMessage := do
  let identityService ← Py.index0 data.identityServices
  let region ← Py.index0 data.providerConf.regions
  let identityProvider ← Py.index0 data.providerConf.identityProviders
  let userGroup ← Py.index0 data.issuer.userGroups
  return {
    msgVersion
    providerName := data.providerConf.name
    providerType := data.providerConf.type
    identityEndpoint := identityService.endpoint
    regionName := region.name
    overbookingCpu := region.overbookingCpu
    overbookingRam := region.overbookingRam
    bandwidthIn := region.bandwidthIn
    bandwidthOut := region.bandwidthOut
    issuerEndpoint := data.issuer.endpoint
    issuerName := identityProvider.idpName
    issuerProtocol := identityProvider.protocol
    userGroup := userGroup.name
    projectId := data.project.uuid
    blockStorageServices := data.blockStorageServices
    computeServices := data.computeServices
    networkServices := data.networkServices
    objectStoreServices := data.objectStoreServices }

/-- `now` is the time at which the message is built. -/
def buildMessage (data : ConnectionDict) (msgVersion now : String) : Except PyError KafkaMessage :=
  if msgVersion = "1.2.0" then commonMessage data msgVersion
  else if msgVersion = "1.3.0" then do
    let message ← commonMessage data msgVersion
    return { message with timestamp := some now }
  else if msgVersion = "1.4.0" then do
    let message ← commonMessage data msgVersion
    let identityProvider ← Py.index0 data.providerConf.identityProviders
    return { message with timestamp := some now, issuerAudience := some identityProvider.audience }
  else .error (.valueError "Invalid message version: %s")

/-- One turn of the loop of `send`. -/
def sendItem (kafka : Kafka) (now : Nat → String) (topic msgVersion : String)
    (data : ConnectionDict) : Session KafkaMessage PyError Unit := do
  let message ← Session.ofExcept (buildMessage data msgVersion (now (← get).attempts.length))
  Session.send (kafka.send · topic ·) message

/-- `now n` is the time at which the `n`-th message is built. -/
def send (kafka : Kafka) (now : Nat → String) (topic : String) (data : List ConnectionDict)
    (msgVersion : String) : Session KafkaMessage PyError Unit := do
  data.forM (sendItem kafka now topic msgVersion)
  Session.ofExcept kafka.close

end Producer

/-- The exceptions that `send_to_kafka` catches. -/
def kafkaFailed : PyError → Session KafkaMessage PyError Unit
  | .noBrokersAvailable | .valueError _ | .fileNotFoundError => return ()
  | e => throw e

def sendToKafka (kafka : Kafka) (now : Nat → String) (settings : Settings)
    (data : List ConnectionDict) : Session KafkaMessage PyError Unit :=
  tryCatch (do
    Session.ofExcept (Producer.init kafka settings)
    Producer.send kafka now settings.kafkaTopic data settings.kafkaMsgVersion) kafkaFailed

end FRF.Impl
