import FedRegFeeder.Framework.Attempt
import FedRegFeeder.Impl.Providers.ConnThread

/-!
# Providers

`src/providers/core.py`: the connections of a provider, one for each region
and project, and the data they retrieve. The state of the methods of a
`ProviderThread` is its `error` attribute and, as a ghost, what has been tried
(`Attempt`); how a connection retrieves its data is a parameter
(`getProviderData` in the program).

Rebuilding a model from the fields of a valid one gives an equal one.
-/

namespace FRF.Impl

open Py (PyError)
open Framework (Log logAttempt logError)

structure ProviderThread where
  providerConf : Provider
  issuers : List Issuer

/-- What a `ProviderThread` tries: to prepare a connection, and to retrieve data
through it. -/
inductive Attempt where
  | prepare (region : Region) (project : Project)
  | retrieve (c : ConnectionThread)
deriving DecidableEq

/-- A method of a `ProviderThread`; `__init__` leaves the state `{}`. -/
abbrev ProviderMethod (α : Type) := StateT (Log Attempt) (Except PyError) α

namespace ProviderThread

/-- The project as configured for a region. -/
def prepareProjectConf (project : Project) (regionName : String) : Project :=
  let regionProps := project.perRegionProps.find? (·.regionName = regionName)
  let item := { project with perRegionProps := [] }
  match regionProps with
  | none => item
  | some props => { item with
      defaultPrivateNet := props.defaultPrivateNet
      defaultPublicNet := props.defaultPublicNet
      privateNetProxy := props.privateNetProxy
      perUserLimits := props.perUserLimits }

/-- The issuer with only the given group, and in it only the given SLA. -/
def issuerFor (issuer : Issuer) (userGroup : UserGroup) (sla : SLA) : Issuer :=
  { issuer with userGroups := [{ userGroup with slas := [sla] }] }

/-- The first SLA named `projectSla`, with its issuer and user group. -/
def getIssuerMatchingProject (issuers : List Issuer) (projectSla : String) :
    Except PyError Issuer :=
  let candidates := issuers.flatMap fun issuer =>
    issuer.userGroups.flatMap fun userGroup =>
      (userGroup.slas.filter (·.docUuid = projectSla)).map (issuerFor issuer userGroup)
  match candidates with
  | issuer :: _ => .ok issuer
  | [] => .error (.valueError s!"No SLA matches project's doc_uuid `{projectSla}`")

def getAuthMethodMatchingIssuer (providerConf : Provider) (issuerEndpoint : String) :
    Except PyError AuthMethod :=
  match providerConf.identityProviders.find? (·.endpoint = issuerEndpoint) with
  | some authMethod => .ok authMethod
  | none =>
    let trustedEndpoints := providerConf.identityProviders.map (·.endpoint)
    .error (.valueError (s!"No identity provider matches endpoint `{issuerEndpoint}` in " ++
      s!"provider's trusted identity providers {trustedEndpoints}."))

/-- The body of the `try` of `get_connection_thread`. -/
def connect (t : ProviderThread) (region : Region) (project : Project) :
    Except PyError ConnectionThread := do
  let projectConf := prepareProjectConf project region.name
  let issuer ← getIssuerMatchingProject t.issuers projectConf.sla
  let authMethod ← getAuthMethodMatchingIssuer t.providerConf issuer.endpoint
  let providerConf := { t.providerConf with
    regions := [region], projects := [projectConf], identityProviders := [authMethod] }
  ConnectionThread.init providerConf issuer

/-- A pair that no connection can be prepared for is skipped. -/
def getConnectionThread (t : ProviderThread) (region : Region) (project : Project) :
    ProviderMethod (Option ConnectionThread) := do
  logAttempt (.prepare region project)
  match connect t region project with
  | .ok c => return some c
  | .error (.valueError _) | .error (.assertionError _) => do
    logError
    return none
  | .error e => throw e

variable (retrieve : ConnectionThread → Except PyError ConnectionData)

/-- Get provider data. -/
def retrieveData (item : ConnectionThread) : ProviderMethod (Option ConnectionData) := do
  logAttempt (.retrieve item)
  match retrieve item with
  | .ok data => return some data
  | .error .openstackProviderError | .error .kubernetesProviderError => do
    logError
    return none
  | .error (.notImplementedError _) => do
    logError
    return none
  | .error e => throw e

/-- `executor.map(self.retrieve_data, connections)`, and the list of its
results: every connection is tried, each on its own; the first exception, in
the order of the connections, is raised. -/
def retrieveAllParallel (connections : List ConnectionThread) :
    ProviderMethod (List (Option ConnectionData)) :=
  Framework.collect (connections.map fun c => (retrieveData retrieve c).run {})

/-- The data of the connections, one after the other or in parallel. -/
def retrieveAll (parallel : Bool) (connections : List ConnectionThread) :
    ProviderMethod (List (Option ConnectionData)) :=
  if parallel then retrieveAllParallel retrieve connections
  else connections.mapM (retrieveData retrieve)

/-- Each pair of a region and a project, region by region. -/
def pairs (providerConf : Provider) : List (Region × Project) :=
  providerConf.regions.flatMap fun region => providerConf.projects.map (region, ·)

def getProvider (t : ProviderThread) (parallel : Bool := true) :
    ProviderMethod (Provider × List ConnectionData × Bool) := do
  if t.providerConf.status ≠ .active then
    return (t.providerConf, [], false)
  let connections ← (pairs t.providerConf).mapM fun p => getConnectionThread t p.1 p.2
  let connections := connections.reduceOption
  let providerData ← retrieveAll retrieve parallel connections
  let providerData := providerData.reduceOption
  if connections.any (·.error) then logError
  return (t.providerConf, providerData, (← get).error)

end ProviderThread

end FRF.Impl
