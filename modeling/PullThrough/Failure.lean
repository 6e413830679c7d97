import PullThrough.Http.Status
/-!
What can go wrong, by cause. Each cause has one wording, given by its `message`; a cause `reported`
carries a wording of its own, for sources outside the library.
-/
namespace PullThrough

/-- Why a credential opens nothing. -/
inductive AccessFault where
  | unauthenticated
  | invalidSignature
  | expired
  | scopeMismatch (expected actual : String)
  | malformed
  | invalidCredentials
  deriving DecidableEq, Repr

def AccessFault.message : AccessFault → String
  | unauthenticated => "no bearer token presented"
  | invalidSignature => "token signature is invalid"
  | expired => "token has expired"
  | scopeMismatch expected actual =>
    "token scope " ++ actual ++ " does not grant access to " ++ expected
  | malformed => "token is malformed"
  | invalidCredentials => "invalid credentials"

/-- Why a text is no name. -/
inductive NameFault where
  | unsupportedDigest (text : String)
  | malformedDigest (text : String)
  | group (text : String)
  | image (text : String)
  | tag (text : String)
  | reported (text : String)
  deriving DecidableEq, Repr

def NameFault.message : NameFault → String
  | unsupportedDigest text => "unsupported digest: " ++ text
  | malformedDigest text => "malformed sha256 digest: " ++ text
  | group text => "invalid group: " ++ text
  | image text => "invalid image name: " ++ text
  | tag text => "invalid tag: " ++ text
  | reported text => text

/-- The calls on the origin registry, the reading of an answer's body apart from its head. -/
inductive Call where
  | tokenRequest
  | tokenResponse
  | manifestHead
  | manifestGet
  | manifestBody
  | blobGet
  | blobBody
  deriving DecidableEq, Repr

def Call.name : Call → String
  | tokenRequest => "token request"
  | tokenResponse => "token response"
  | manifestHead => "manifest HEAD"
  | manifestGet => "manifest GET"
  | manifestBody => "manifest body"
  | blobGet => "blob GET"
  | blobBody => "blob body"

/-- A waiting time in seconds as messages show it: no time at all is counted in nanoseconds. -/
def waitingTime (seconds : Nat) : String :=
  if seconds = 0 then "0ns" else toString seconds ++ "s"

/-- Why the origin counts as out of service. -/
inductive Outage where
  | failed (call : Call)
  | timedOut (call : Call) (limit : Nat)
  | stalled (limit : Nat)
  | tokenEndpoint (status : Status)
  | answered (url : String) (status : Status)
  | reported (text : String)
  deriving DecidableEq, Repr

def Outage.message : Outage → String
  | failed call => call.name ++ " failed"
  | timedOut call limit => call.name ++ " timed out after " ++ waitingTime limit
  | stalled limit => "blob body stalled for more than " ++ waitingTime limit
  | tokenEndpoint status => "token endpoint returned " ++ status.text
  | answered url status => url ++ " returned " ++ status.text
  | reported text => text

/-- Why the origin grants no access. -/
inductive Denial where
  | tokenEndpoint (status : Status)
  | malformedToken
  | noToken
  | answered (url : String) (status : Status)
  | reported (text : String)
  deriving DecidableEq, Repr

def Denial.message : Denial → String
  | tokenEndpoint status => "token endpoint returned " ++ status.text
  | malformedToken => "malformed token response"
  | noToken => "token response carried no token"
  | answered url status => url ++ " returned " ++ status.text
  | reported text => text

/-- What the disk refused to the cache. -/
inductive CacheFault where
  | cacheFolder
  | readRecord (path : String)
  | readPayload (path : String)
  | create (path : String)
  | write (path : String)
  | sync (path : String)
  | rename (path : String)
  | statBlob (path : String)
  | blobFolder
  | blobFile
  | writeBlob
  | syncBlob
  /-- A download that told others what it came to, but not those who ask. -/
  | closedDownload
  | serialization (text : String)
  | reported (text : String)
  deriving DecidableEq, Repr

def CacheFault.message : CacheFault → String
  | cacheFolder => "Failed to create cache dir"
  | readRecord path => "Failed to read manifest record " ++ path
  | readPayload path => "Failed to read manifest " ++ path
  | create path => "Failed to create " ++ path
  | write path => "Failed to write " ++ path
  | sync path => "Failed to sync " ++ path
  | rename path => "Failed to rename " ++ path
  | statBlob path => "Failed to stat blob " ++ path
  | blobFolder => "Failed to create blob dir"
  | blobFile => "Failed to create blob file"
  | writeBlob => "Failed to write blob"
  | syncBlob => "Failed to sync blob"
  | closedDownload => "Download channel error: channel closed"
  | serialization text => "Serialization error: " ++ text
  | reported text => text

/-- How a configuration document fails to describe a configuration. -/
inductive Misfit where
  /-- A value of the wrong kind. -/
  | wrongType (found expected : String)
  /-- A value of the right kind that is out of range. -/
  | wrongValue (found expected : String)
  | missing (field : String)
  /-- A list of fields with too few or too many items. -/
  | wrongLength
  deriving DecidableEq, Repr

/-- What is told of a misfit. Nothing is told of a list's length. -/
def Misfit.message? : Misfit → Option String
  | wrongType found expected => some ("invalid type: " ++ found ++ ", expected " ++ expected)
  | wrongValue found expected => some ("invalid value: " ++ found ++ ", expected " ++ expected)
  | missing field => some ("missing field `" ++ field ++ "`")
  | wrongLength => none

/-- Why there is no usable configuration. -/
inductive ConfigFault where
  | unreadable (file : String)
  | badSyntax
  | misfit (cause : Misfit)
  | empty (key : String)
  | zero (key : String)
  | shortSecret
  | bind (address : String)
  | reported (text : String)
  deriving DecidableEq, Repr

def ConfigFault.message : ConfigFault → String
  | unreadable file => "Failed to read " ++ file
  | badSyntax => "Invalid config"
  | misfit cause => "Invalid config" ++ (cause.message?.map (": " ++ ·)).getD ""
  | empty key => key ++ " must not be empty"
  | zero key => key ++ " must be greater than zero"
  | shortSecret => "auth.signing_secret must be at least 16 bytes"
  | bind address => "Failed to bind to " ++ address
  | reported text => text

/-- The failures of the library. -/
inductive Failure where
  | access (fault : AccessFault)
  | unavailable (cause : Outage)
  | denied (cause : Denial)
  | unexpectedStatus (status : Status) (url : String)
  | notFound (what : String)
  | digestMismatch (expected actual : String)
  | invalidReference (fault : NameFault)
  | cache (fault : CacheFault)
  | config (fault : ConfigFault)
  | signing (text : String)
  deriving DecidableEq, Repr

namespace Failure

def message : Failure → String
  | access fault => "Authorization error: " ++ fault.message
  | unavailable cause => "Upstream unavailable: " ++ cause.message
  | denied cause => "Upstream rejected token request: " ++ cause.message
  | unexpectedStatus status url =>
    "Upstream returned unexpected status " ++ toString status.code ++ ": " ++ url
  | notFound what => "Not found: " ++ what
  | digestMismatch expected actual =>
    "Digest mismatch: expected " ++ expected ++ ", computed " ++ actual
  | invalidReference fault => "Invalid reference: " ++ fault.message
  | cache fault => "Cache error: " ++ fault.message
  | config fault => "Configuration error: " ++ fault.message
  | signing text => "Signing error: " ++ text

/-- The one failure on which the last known manifest is served. -/
def isUnavailable : Failure → Bool
  | unavailable _ => true
  | _ => false

end Failure

end PullThrough
