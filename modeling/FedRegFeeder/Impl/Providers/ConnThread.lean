import FedRegFeeder.Impl.Providers.Openstack
import FedRegFeeder.Impl.Providers.K8s

/-!
# Connections

`src/providers/conn_thread.py`: one connection to a provider, for one region,
one project and one issuer. What connections find outside the program is a
`World`.
-/

namespace FRF.Impl

open Py (PyError)

/-- What the program reaches through its connections. -/
structure World where
  serviceNames : ServiceNames
  agent : OidcAgent
  connectOpenstack : ConnectArgs → Except PyError Connection
  connectKubernetes : (authUrl token : String) → (caPath : Option String) → Cluster

structure ConnectionThread where
  error : Bool := false
  providerConf : Provider
  issuer : Issuer
deriving DecidableEq, Repr

/-- `assert c, msg` outside a method. -/
def assertThat (c : Bool) (msg : String) : Except PyError Unit :=
  if c then .ok () else .error (.assertionError msg)

def ConnectionThread.init (providerConf : Provider) (issuer : Issuer) :
    Except PyError ConnectionThread := do
  assertThat (providerConf.regions.length = 1)
    s!"Invalid number of regions: {providerConf.regions.length}"
  assertThat (providerConf.projects.length = 1)
    s!"Invalid number of projects: {providerConf.projects.length}"
  assertThat (providerConf.identityProviders.length = 1)
    s!"Invalid number of trusted identity providers: {providerConf.identityProviders.length}"
  let authMethod ← Py.index0 providerConf.identityProviders
  assertThat (issuer.endpoint = authMethod.endpoint)
    (s!"Issuer endpoint {issuer.endpoint} does not match trusted identity " ++
      s!"provider's one {authMethod.endpoint}")
  assertThat (issuer.userGroups.length = 1)
    s!"Invalid number of user groups: {issuer.userGroups.length}"
  let userGroup ← Py.index0 issuer.userGroups
  assertThat (userGroup.slas.length = 1) s!"Invalid number of slas: {userGroup.slas.length}"
  return { providerConf, issuer }

/-- `get_provider_data`. It leaves the thread as it is: an error that the data
object recorded stays in the data object. -/
def getProviderData (w : World) (t : ConnectionThread) : Except PyError ConnectionData :=
  let retrieve := match t.providerConf.kind with
    | .openstack imageTags networkTags =>
      OpenstackData.init w.connectOpenstack t.providerConf imageTags networkTags t.issuer
    | .kubernetes caPath =>
      KubernetesData.init w.serviceNames w.agent w.connectKubernetes t.providerConf caPath
        t.issuer
  (retrieve.run false).map Prod.fst

end FRF.Impl
