import FedRegFeeder.Impl.Models.Provider

/-!
# Reading site configurations

`load_config` and `get_site_configs` of `src/utils.py`. What `yaml.load` makes
of a file is a `Yaml`. Building a `SiteConfig` from the mapping of a file is
pydantic's, which runs the validators (`SiteConfig.validate`): of these only
`get_token` asks for something outside, so what pydantic does is a
`Construction`, which goes on with the answer of `get_token`.
-/

namespace FRF.Impl

open Py (PyError)

/-- An object that `yaml.load` makes, with the truth value of one of a class not
listed here. -/
inductive Yaml where
  | null
  | bool (b : Bool)
  | number (n : ℚ)
  | str (s : String)
  | list (l : List Yaml)
  | mapping (m : List (Yaml × Yaml))
  | other (name : String) (truthy : Bool)

/-- The truth value of an object. -/
def Yaml.truthy : Yaml → Bool
  | .null => false
  | .bool b => b
  | .number n => n ≠ 0
  | .str s => s ≠ ""
  | .list l => !l.isEmpty
  | .mapping m => !m.isEmpty
  | .other _ truthy => truthy

/-- A string. -/
def Yaml.string? : Yaml → Option String
  | .str s => some s
  | _ => none

/-- What the program takes for a configuration: a `SiteConfig`, or an object
that `load_config` returned as it found it. -/
inductive Loaded where
  | siteConfig (c : SiteConfig)
  | object (y : Yaml)

/-- How pydantic builds a `SiteConfig`: it ends with one or with a
`ValidationError`, and for each issuer on the way it runs `get_token`, on the
endpoint if that is valid and the token given. -/
inductive Construction where
  | built (c : SiteConfig)
  | refused (msg : String)
  | getToken (endpoint : Option String) (v : String) (next : Except PyError String → Construction)

/-- The exceptions of a validator that pydantic collects; any other escapes. -/
def caughtByPydantic : PyError → Bool
  | .valueError _ | .typeError | .assertionError _ => true
  | _ => false

def Construction.run (agent : OidcAgent) : Construction → Except PyError SiteConfig
  | .built c => .ok c
  | .refused msg => .error (.valueError msg)
  | .getToken endpoint v next =>
    match Issuer.getToken agent endpoint v with
    | .ok token => (next (.ok token)).run agent
    | .error e => if caughtByPydantic e then (next (.error e)).run agent else .error e

/-- What the program reads configurations from: the object in a file, the
construction of a `SiteConfig` from keyword arguments, and the agent. -/
structure ConfReader where
  load : (fname : String) → Except PyError Yaml
  build : List (String × Yaml) → Construction
  agent : OidcAgent

/-- A key that `SiteConfig(**config)` takes: a string, but not the name pydantic
gives to `self`. -/
def Yaml.keyword? (key : Yaml) : Option String :=
  key.string?.filter (· ≠ "__pydantic_self__")

/-- `SiteConfig(**config)`. -/
def ConfReader.siteConfig (reader : ConfReader) : Yaml → Except PyError SiteConfig
  | .mapping m => do
    let args ← m.mapM fun e => match e.1.keyword? with
      | some k => .ok (k, e.2)
      | none => .error .typeError
    (reader.build args).run reader.agent
  | _ => .error .typeError

/-- An object that is returned as it was found. -/
def Yaml.returned : Yaml → Option Loaded
  | .null => none
  | y => some (.object y)

/-- Load provider configuration from yaml file. -/
def loadConfig (reader : ConfReader) (fname : String) : Except PyError (Option Loaded) :=
  match reader.load fname with
  | .error .fileNotFoundError => .ok none
  | .error e => .error e
  | .ok config =>
    if config.truthy then
      match reader.siteConfig config with
      | .ok c => .ok (some (.siteConfig c))
      | .error (.valueError _) => .ok none
      | .error .oidcAgentConnectError | .error .oidcAgentError => .ok none
      | .error e => .error e
    else .ok config.returned

/-- Create a list of SiteConfig from a list of yaml files. -/
def getSiteConfigs (reader : ConfReader) (yamlFiles : List String) :
    Except PyError (List Loaded × Bool) := do
  let siteConfigs ← yamlFiles.mapM (loadConfig reader)
  let error := siteConfigs.any (·.isNone)
  return (siteConfigs.reduceOption, error)

end FRF.Impl
