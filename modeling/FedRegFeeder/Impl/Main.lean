import FedRegFeeder.Impl.FedRegConn
import FedRegFeeder.Impl.KafkaConn
import FedRegFeeder.Impl.Providers.Core
import FedRegFeeder.Impl.Utils.Components
import FedRegFeeder.Impl.Utils.SiteConfigs

/-!
# The program

`src/main.py`. What the program finds outside is a `System`. A run is a session
of messages to Kafka and requests to the Federation-Registry (`mainSession`);
`main` is the exit status of the process.
-/

namespace FRF.Impl

open Py (PyError)
open Framework (Log Session)

structure System where
  listdir : String → Except PyError (List String)
  /-- The object in a file. -/
  load : (fname : String) → Except PyError Yaml
  /-- The construction of a `SiteConfig` from keyword arguments. -/
  build : List (String × Yaml) → Construction
  world : World
  /-- The validators of `ProviderCreateExtended`. -/
  validateProvider : ProviderCreateExtended → Except PyError Unit
  kafka : Kafka
  /-- The time at which the `n`-th message is built. -/
  now : Nat → String
  registry : Registry

/-- The configurations are read with the agent of the connections. -/
def System.reader (sys : System) : ConfReader where
  load := sys.load
  build := sys.build
  agent := sys.world.agent

/-- The providers of a configuration, with its issuers. -/
def providerThreads : Loaded → Except PyError (List ProviderThread)
  | .siteConfig c => .ok ((c.openstack ++ c.kubernetes).map fun conf =>
      { providerConf := conf, issuers := c.trustedIdps })
  | .object _ => .error .attributeError

/-- What `get_provider` returns, and the state it leaves its thread in. -/
abbrev ProviderRun := (Provider × List ConnectionData × Bool) × Log Attempt

/-- `get_provider` of each thread: they share nothing, and of those that raise
the first one counts, whether they run in parallel or not. -/
def runThreads (w : World) (parallel : Bool) (pthreads : List ProviderThread) :
    Except PyError (List ProviderRun) :=
  pthreads.mapM fun t => (ProviderThread.getProvider (getProviderData w) t parallel).run {}

/-- The variables that the loop over the providers sets. -/
structure Collected where
  error : Bool
  kafkaData : List ConnectionDict := []
  providers : List ProviderCreateExtended := []

/-- One turn of the loop over the providers. Its own variable is `error`. -/
def collectProvider (sys : System) (acc : Collected) (run : ProviderRun) :
    Except PyError Collected := do
  let (providerConf, connectionsData, error) := run.1
  let kafkaData := acc.kafkaData ++ connectionsData.map (·.toDict)
  let provider ← createProvider sys.validateProvider providerConf connectionsData error
  return { error, kafkaData, providers := acc.providers ++ [provider] }

/-- A message to Kafka, or a request to the Federation-Registry. -/
inductive Effect where
  | message (m : KafkaMessage)
  | request (q : Request)
deriving DecidableEq

/-- Create kafka producer if needed and send data to kafka. -/
def publish (sys : System) (settings : Settings) (data : List ConnectionDict) :
    Session Effect PyError Unit :=
  if settings.kafkaEnable then
    Session.within .message (sendToKafka sys.kafka sys.now settings data)
  else return ()

/-- The token of the first issuer of the first configuration. -/
def firstToken : List Loaded → Except PyError String
  | [] => .ok ""
  | .siteConfig c :: _ => (Py.index0 c.trustedIdps).map (·.token)
  | .object _ :: _ => .error .attributeError

/-- A run of `main`, from the state `{}` in which nothing has been sent. -/
def mainSession (sys : System) (settings : Settings) : Session Effect PyError Nat := do
  -- Read all yaml files containing providers configurations.
  let yamlFiles ← Session.ofExcept (getConfFiles sys.listdir settings)
  let (siteConfigs, error) ← Session.ofExcept (getSiteConfigs sys.reader yamlFiles)
  -- Prepare data (merge issuers and provider configurations)
  let pthreads ← Session.ofExcept (siteConfigs.mapM providerThreads)
  -- Multithreading read
  let runs ← Session.ofExcept (runThreads sys.world settings.parallel pthreads.flatten)
  let error := error || runs.any (·.2.error)
  let collected ← Session.ofExcept (runs.foldlM (collectProvider sys) { error })
  publish sys settings collected.kafkaData
  -- Update the Federation-Registry
  let token ← Session.ofExcept (firstToken siteConfigs)
  let updated ← Session.within .request (updateDatabase sys.registry
    (inferServiceEndpoints settings) collected.providers token settings.fedRegTimeout)
  -- Found at least one error.
  return if collected.error || !updated then 1 else 0

/-- The exit status of a run that reaches its end. -/
def main (sys : System) (settings : Settings) : Except PyError Nat :=
  (mainSession sys settings {}).1

end FRF.Impl
