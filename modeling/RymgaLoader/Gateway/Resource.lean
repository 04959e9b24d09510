import RymgaLoader.Gateway.Startup
import RymgaLoader.Lib.Base64

/-!
# The gateway's two endpoints

`SessionService.issue` and the methods of `GatewayResource`.  The license
validator is given by what it answers for a request; the clock reading and
the random session identifier of a call are its arguments.  An exception that
no handler catches is the result of the call.
-/

namespace RymgaLoader.Gateway

open Protocol

/-- What the license validator is asked about. -/
structure SessionRequestData where
  product : JavaString
  installationId : JavaString
  license : JavaString
  timestamp : Int64
  nonce : Bytes
  deriving DecidableEq

def SessionRequestData.ofRequest (request : SessionRequest) :
    SessionRequestData where
  product := request.productId
  installationId := request.installationId
  license := request.license
  timestamp := request.timestamp
  nonce := request.requestNonce

abbrev LicenseValidator := SessionRequestData → Throwing Bool

inductive Body
  | empty
  | bytes (content : Bytes)
  | stream (artifact : Artifact)

structure Response where
  status : Nat
  headers : List (String × String)
  body : Body

def noStore (response : Response) : Response :=
  { response with
    headers := response.headers ++
      [("Cache-Control", "no-store"), ("X-Content-Type-Options", "nosniff")] }

/-- A response with a status and nothing else. -/
def statusOnly (status : Nat) : Response := noStore ⟨status, [], .empty⟩

def sessionManifestMediaType : String :=
  "application/vnd.rymga.loader-session-manifest"

def sessionResponse (encoded : Bytes) : Response :=
  noStore ⟨200, [("Content-Type", sessionManifestMediaType)], .bytes encoded⟩

namespace Deployment

variable (gateway : Deployment)

/-- `SessionManifest.sign`. -/
def sign (manifest : SessionManifest gateway.jdk) :
    Throwing (SessionManifest gateway.jdk) := do
  let message ← protocolCall manifest.unsignedBytes
  let signed ← gateway.ed25519.sign message
  protocolCall (SessionManifest.make gateway.jdk
    { manifest.toManifestData with signature := signed })

/-- The part of `issue` before the signature. -/
def prepare (licenseValidator : LicenseValidator) (now : Int64)
    (sessionId : Bytes) (request : SessionRequest) :
    Throwing (SessionManifest gateway.jdk) := do
  demand (¬(request.timestamp < now - gateway.configuration.clockSkewSeconds ∨
      request.timestamp > now + gateway.configuration.clockSkewSeconds))
    (.protocol ⟨"request timestamp outside the accepted window"⟩)
  let accepted ← licenseValidator (.ofRequest request)
  demand (accepted = true) .licenseDenied
  let artifact ← gateway.resolve request.productId request.channel
  protocolCall (SessionManifest.make gateway.jdk
    { keyId := gateway.configuration.keyId
      requestNonce := request.requestNonce
      sessionId := sessionId
      issuedAt := now
      expiresAt := now + gateway.configuration.sessionTtlSeconds
      productId := request.productId
      channel := request.channel
      artifactId := artifact.id
      originalFilename := artifact.filename
      artifactSize := artifact.size
      artifactSha256 := artifact.sha256
      signature := List.replicate ed25519SignatureBytes 0 })

def issue (licenseValidator : LicenseValidator) (now : Int64)
    (sessionId : Bytes) (request : SessionRequest) :
    Throwing (SessionManifest gateway.jdk) := do
  let manifest ← gateway.prepare licenseValidator now sessionId request
  gateway.sign manifest

/-- The handlers of `createSession`. -/
def sessionFailure : GatewayException → Throwing Response
  | .protocol _ => return statusOnly 400
  | .licenseDenied => return statusOnly 403
  | .licenseProviderUnavailable => return statusOnly 503
  | .artifactNotFound => return statusOnly 404
  | .artifactUnavailable => return statusOnly 503
  | other => throw other

/-- The guarded part of `createSession`. -/
def grant (licenseValidator : LicenseValidator) (now : Int64)
    (sessionId encodedRequest : Bytes) : Throwing Response := do
  let request ← protocolCall (SessionRequest.decode encodedRequest)
  let manifest ← gateway.issue licenseValidator now sessionId request
  let encoded ← protocolCall manifest.encode
  return sessionResponse encoded

def createSession (licenseValidator : LicenseValidator) (now : Int64)
    (sessionId encodedRequest : Bytes) : Throwing Response :=
  tryCatch (gateway.grant licenseValidator now sessionId encodedRequest)
    sessionFailure

def authorizationStem : JavaString :=
  java ['R', 'y', 'm', 'g', 'a', 'S', 'e', 's', 's', 'i', 'o', 'n', ' ']

/-- `getBytes` under ISO 8859-1; what has no byte becomes a question mark. -/
def latin1 (value : JavaString) : Bytes :=
  value.map fun unit =>
    if unit.toNat ≤ 0xFF then UInt8.ofNat unit.toNat else 0x3F

def decodeAuthorization (authorization : Option JavaString) :
    Throwing (SessionManifest gateway.jdk) :=
  match authorization with
  | none => throw (.protocol ⟨"invalid authorization header"⟩)
  | some authorization => do
      demand (authorizationStem.isPrefixOf authorization ∧
          ¬authorization.length > 6000)
        (.protocol ⟨"invalid authorization header"⟩)
      match Base64.decodeUrl
          (latin1 (authorization.drop authorizationStem.length)) with
      | none => throw (.illegalArgument "illegal base64 input")
      | some encoded =>
          protocolCall (SessionManifest.decode gateway.jdk encoded)

/-- `SessionManifest.verify`. -/
def verify (manifest : SessionManifest gateway.jdk) : Throwing Bool := do
  let message ← protocolCall manifest.unsignedBytes
  gateway.ed25519.verify message manifest.signature

/-- The conditions under which a manifest authorizes a download. -/
def authorizes (manifest : SessionManifest gateway.jdk) (now : Int64) :
    Throwing Bool :=
  if manifest.keyId ≠ gateway.configuration.keyId then return false
  else do
    if ← gateway.verify manifest then
      return !(manifest.issuedAt > now || manifest.expiresAt < now)
    else return false

/-- The handlers of `downloadArtifact`; a `ProtocolException` is an
`IllegalArgumentException`. -/
def downloadFailure : GatewayException → Throwing Response
  | .protocol _ | .illegalArgument _ => return statusOnly 403
  | .artifactNotFound => return statusOnly 404
  | .artifactUnavailable => return statusOnly 503
  | other => throw other

/-- The guarded part of `downloadArtifact`. -/
def serve (authorization : Option JavaString) (now : Int64) :
    Throwing Response := do
  let manifest ← gateway.decodeAuthorization authorization
  if ← gateway.authorizes manifest now then
    let artifact ← gateway.resolveForManifest manifest.artifactId
      manifest.artifactSize manifest.artifactSha256
    return noStore ⟨200, [("Content-Type", "application/java-archive"),
      ("Content-Length", toString artifact.size)], .stream artifact⟩
  else return statusOnly 403

def downloadArtifact (authorization : Option JavaString) (now : Int64) :
    Throwing Response :=
  tryCatch (gateway.serve authorization now) downloadFailure

end Deployment

end RymgaLoader.Gateway
