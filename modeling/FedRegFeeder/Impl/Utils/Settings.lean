import FedRegFeeder.Impl.Python

/-!
# Settings

The settings of `src/models/config.py` that the modelled functions read, and
the functions of `src/utils.py` that read nothing else: `get_conf_files` and
`infer_service_endpoints`.
-/

namespace FRF.Impl

open Py (PyError)

structure Settings where
  fedRegApiUrl : String := "http://localhost:8000/api"
  fedRegTimeout : Int := 30
  providersConfDir : String := "providers-conf"
  parallel : Bool := true
  kafkaEnable : Bool := false
  kafkaTopic : String := "federation-registry-feeder"
  kafkaSslEnable : Bool := false
  kafkaSslPassword : Option String := none
  kafkaMsgVersion : String := "1.2.0"
  /-- `api_ver.PROVIDERS`. -/
  apiVerProviders : String := "v1"
deriving DecidableEq, Repr

/-- The endpoint of the providers, the only one that is used. -/
def inferServiceEndpoints (settings : Settings) : String :=
  Py.pathJoin (Py.pathJoin settings.fedRegApiUrl settings.apiVerProviders) "providers"

/-- `x.endswith(".config.yaml")`. -/
def isConfFile (x : String) : Bool := ".config.yaml".toList.isSuffixOf x.toList

/-- `listdir` is `os.listdir`. -/
def getConfFiles (listdir : String → Except PyError (List String)) (settings : Settings) :
    Except PyError (List String) :=
  match listdir settings.providersConfDir with
  | .ok names => .ok ((names.filter isConfFile).map (Py.pathJoin settings.providersConfDir))
  | .error .fileNotFoundError => .ok []
  | .error e => .error e

example : getConfFiles (fun _ => .ok ["recas.config.yaml", "README.md"]) {} =
    .ok ["providers-conf/recas.config.yaml"] := by decide

end FRF.Impl
