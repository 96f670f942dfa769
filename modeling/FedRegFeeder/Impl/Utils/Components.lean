import FedRegFeeder.Impl.Providers.Data
import FedRegFeeder.Impl.Utils.Merge

/-!
# From retrieved data to a provider

`retrieve_components` and `create_provider` of `src/utils.py`.
-/

namespace FRF.Impl

open Py (PyError)

/-- What a connection contributes to its provider. -/
def retrieveComponents (data : ConnectionData) : Except PyError Sibling := do
  let regionConf ← Py.index0 data.providerConf.regions
  let region : RegionCreateExtended := { regionConf with
    blockStorageServices := data.blockStorageServices
    computeServices := data.computeServices
    identityServices := data.identityServices
    networkServices := data.networkServices
    objectStoreServices := data.objectStoreServices }
  let relationship ← Py.index0 data.providerConf.identityProviders
  let userGroup ← Py.index0 data.issuer.userGroups
  let sla ← Py.index0 userGroup.slas
  let project ← Py.index0 data.providerConf.projects
  let identityProvider : IdentityProviderCreateExtended :=
    { description := data.issuer.description
      groupClaim := data.issuer.groupClaim
      endpoint := data.issuer.endpoint
      relationship
      userGroups := [{ name := userGroup.name, description := userGroup.description
                       sla := { sla with project := project.id } }] }
  return (identityProvider, data.project, region)

/-- Merge regions, identity providers and projects retrieved by the
connections. `validate` are the validators of `ProviderCreateExtended`. -/
def createProvider (validate : ProviderCreateExtended → Except PyError Unit)
    (providerConf : Provider) (connectionsData : List ConnectionData) (error : Bool) :
    Except PyError ProviderCreateExtended := do
  let siblings ← connectionsData.mapM retrieveComponents
  let (identityProviders, projects, regions) ← mergeComponents siblings
  let provider : ProviderCreateExtended := {
    name := providerConf.name
    type := providerConf.type
    isPublic := providerConf.isPublic
    supportEmails := providerConf.supportEmails
    status := if error then .limited else providerConf.status
    identityProviders, projects, regions }
  validate provider
  return provider

end FRF.Impl
