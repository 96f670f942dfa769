import FedRegFeeder.Impl.Models.Fedreg

/-!
# Identity providers in a site configuration

`src/models/identity_provider.py`: the issuers of a site configuration, their
user groups and the SLAs of these, with the validators of each class. A
validator returns or raises; `find_duplicates` of `fedreg` rejects exactly the
lists with two equal values. `retrieve_token` asks an OIDC agent, which is a
parameter.
-/

namespace FRF.Impl

open Py (PyError)

/-- `find_duplicates(items, attr)`, on the values of the attribute. -/
def findDuplicates {α : Type} [DecidableEq α] (values : List α) : Except PyError Unit :=
  if values.Nodup then .ok () else .error (.valueError "There are multiple identical items")

theorem findDuplicates_eq_ok {α : Type} [DecidableEq α] {values : List α} {u : Unit} :
    findDuplicates values = .ok u ↔ values.Nodup := by
  simp [findDuplicates]

/-! ## Tokens -/

/-- What `subprocess.run` returns. -/
structure CompletedProcess where
  returncode : Int
  stdout : String := ""
  stderr : String := ""

/-- OIDC-Agent: the container it runs in, if any (`OIDC_AGENT_CONTAINER_NAME`),
`subprocess.run` and `get_access_token_by_issuer_url` of `liboidcagent`. -/
structure OidcAgent where
  containerName : Option String := none
  run : (args : List String) → Except PyError CompletedProcess
  getAccessTokenByIssuerUrl : (issuerUrl : String) → (minValidPeriod : Nat) →
    (audience : Option String) → Except PyError String

/-- 5 min. -/
def minValidPeriod : Nat := 5 * 60

/-- Retrieve token using OIDC-Agent. -/
def retrieveToken (agent : OidcAgent) (endpoint : String) (audience : Option String) :
    Except PyError String :=
  match agent.containerName with
  | some container => do
    let args := ["docker", "exec", container, "oidc-token", s!"--time={minValidPeriod}"]
    let args := match audience with
      | some audience => args ++ [s!"--aud={audience}"]
      | none => args
    let tokenCmd ← agent.run (args ++ [endpoint])
    if tokenCmd.returncode > 0 then
      throw (.valueError (if tokenCmd.stderr ≠ "" then tokenCmd.stderr else tokenCmd.stdout))
    return Py.stripChar '\n' tokenCmd.stdout
  | none => agent.getAccessTokenByIssuerUrl endpoint minValidPeriod audience

/-! ## Models -/

structure SLA extends SLABase where
  projects : List String := []
deriving DecidableEq, Repr

structure UserGroup where
  name : String
  description : String := ""
  slas : List SLA
deriving DecidableEq, Repr

/-- An identity provider and the token to use with it. -/
structure Issuer where
  endpoint : String
  groupClaim : String
  description : String := ""
  token : String := ""
  userGroups : List UserGroup
deriving DecidableEq, Repr

def SLA.validateProjects (v : List String) : Except PyError Unit := findDuplicates v

def UserGroup.validateSlas (v : List SLA) : Except PyError Unit := findDuplicates (v.map (·.docUuid))

def Issuer.validateUserGroups (v : List UserGroup) : Except PyError Unit := do
  findDuplicates (v.map (·.name))
  if v.length = 0 then
    throw (.assertionError "Identity provider's user group list can't be empty")

/-- `endpoint` is absent when its own validation failed; `str(None)` is then asked
for. -/
def Issuer.getToken (agent : OidcAgent) (endpoint : Option String) (v : String) :
    Except PyError String :=
  if v = "" then retrieveToken agent (endpoint.getD "None") none else .ok v

/-- The validators that run when an issuer is built, those of its parts first. -/
def Issuer.validate (i : Issuer) : Except PyError Unit := do
  i.userGroups.forM fun g => do
    g.slas.forM fun s => SLA.validateProjects s.projects
    UserGroup.validateSlas g.slas
  Issuer.validateUserGroups i.userGroups

end FRF.Impl
