import PullThrough.Gateway.Basic
import PullThrough.Store.Stats
/-!
Setting up a gateway by its configuration.
-/
namespace PullThrough.Gateway

open Attempt (ask)

/-- The secret that tokens are signed with. Where none is configured, a new one is drawn each
time. -/
def secretOf (c : AuthConfig) : Attempt Bytes :=
  match c.signingSecret with
  | some secret => return Bytes.ofText secret
  | none => ask .entropy

/-- The gateway of a configuration that is fit for use. Its cache is made ready. -/
def ofConfig (c : Config) : Attempt Gateway := do
  if let .error fault := c.validate then
    throw (.config fault)
  let secret ← secretOf c.auth
  let store : Store := { base := .ofText c.cacheDirectory }
  store.prepare
  return {
    signer := ⟨secret, UInt64.ofNat c.auth.tokenTtl⟩
    cache := ⟨store, .ofConfig c.origin⟩
    credentials := ⟨c.auth.users⟩
    allowAnonymous := c.auth.allowAnonymous
    externalUrl := c.externalUrl }

/-- Where a gateway listens. -/
def address (c : ServerConfig) : String := c.bindAddress ++ ":" ++ toString c.portNumber

/-- Sets up a gateway and takes connections for it. -/
def start (c : Config) : Attempt Gateway := do
  let gateway ← ofConfig c
  if !(← ask (.listen (address c.server))) then
    throw (.config (.bind (address c.server)))
  return gateway

end PullThrough.Gateway
