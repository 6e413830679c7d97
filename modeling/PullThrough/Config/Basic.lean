import PullThrough.Failure
import PullThrough.Text.Split
/-!
The configuration of a proxy, its defaults, and when it is fit for use.
-/
namespace PullThrough

/-- Where the proxy listens and how clients reach it. -/
structure ServerConfig where
  bindAddress : String
  portNumber : Nat
  externalUrl : Option String
  deriving DecidableEq, Repr

/-- A user name and a password for the origin. -/
structure OriginLogin where
  username : String
  password : String
  deriving DecidableEq, Repr

/-- Where images come from. Times are in seconds. -/
structure OriginConfig where
  registryUrl : String := "https://registry-1.docker.io"
  tokenUrl : String := "https://auth.docker.io/token"
  service : String := "registry.docker.io"
  timeout : Nat := 10
  connectTimeout : Nat := 5
  insecure : Bool := false
  login : Option OriginLogin := none
  deriving DecidableEq, Repr

/-- Who gets tokens. -/
structure AuthConfig where
  signingSecret : Option String := none
  tokenTtl : Nat := 300
  allowAnonymous : Bool := true
  users : List (String × String) := []
  deriving DecidableEq, Repr

structure Config where
  server : ServerConfig
  cacheDirectory : String
  origin : OriginConfig
  auth : AuthConfig
  deriving DecidableEq, Repr

namespace Config

/-- The configuration of a proxy that is told nothing. -/
def default : Config where
  server := ⟨"0.0.0.0", 5050, none⟩
  cacheDirectory := "cache/dependency-proxy"
  origin := {}
  auth := {}

/-- The shortest secret that may be configured, in octets. -/
def minSecret : Nat := 16

/-- Refuses a configuration under which the proxy could not work. -/
def validate (c : Config) : Except ConfigFault Unit :=
  if c.origin.registryUrl = "" then .error (.empty "upstream.registry_url")
  else if c.origin.tokenUrl = "" then .error (.empty "upstream.token_url")
  else if c.origin.timeout = 0 then .error (.zero "upstream.timeout_secs")
  else if c.auth.tokenTtl = 0 then .error (.zero "auth.token_ttl_secs")
  else if c.auth.signingSecret.any (·.utf8ByteSize < minSecret) then .error .shortSecret
  else .ok ()

/-- An address less the slashes at its end. -/
def trimmedUrl (url : String) : String := String.ofList (Text.trimEnd '/' url.toList)

/-- The address under which clients know the proxy. -/
def externalUrl (c : Config) : String :=
  trimmedUrl (c.server.externalUrl.getD ("http://localhost:" ++ toString c.server.portNumber))

end Config

end PullThrough
