import RymgaLoader.Lib.Base64
import RymgaLoader.Native.Buffer
import RymgaLoader.Native.Manifest
import RymgaLoader.Native.Platform

/-!
# Acquisition

`rymga_loader.c`: the request encoder, the download of the artifact into a
temporary directory and `rymga_loader_acquire` around them.  What comes from
outside the machine (the nonce, the clock readings, the replies) is an input;
hashing and signature checks are parameters.
-/

namespace RymgaLoader.Native

open Protocol

/-- `rymga_loader_result`. -/
inductive Result
  | ok
  | invalidArgument
  | networkError
  | authorizationDenied
  | protocolError
  | signatureError
  | ioError
  | integrityError
  | outOfMemory
  deriving DecidableEq, Repr

/-- `rymga_loader_public_key`. -/
structure PublicKey where
  keyId : Option Bytes
  publicKey : Bytes
  deriving DecidableEq

/-- `rymga_loader_request`; an absent string or array is a null pointer. -/
structure Request where
  endpoint : Option Bytes
  productId : Option Bytes
  channel : Option Bytes
  loaderVersion : Option Bytes
  installationId : Option Bytes
  runtimeDirectory : Bytes
  caBundlePath : Option Bytes
  trustedKeys : Option (List PublicKey)
  timeoutSeconds : Int
  deriving DecidableEq

/-- The functions of libsodium the core relies on. -/
structure Sodium where
  sha256 : Bytes → Bytes
  verifyDetached : (signature message publicKey : Bytes) → Bool

/-- One HTTP exchange as the core requests it. -/
structure Exchange where
  url : Bytes
  headers : List Bytes
  body : Option Bytes
  caBundlePath : Option Bytes
  timeoutSeconds : Int
  deriving DecidableEq

/-- What the network does with an exchange: the chunks it would deliver,
whether the transfer succeeds when all are taken, and the status code. -/
structure Reply where
  chunks : List Bytes
  transferred : Bool
  status : Int

/-- What an acquisition receives from outside the machine. -/
structure Inputs where
  nonce : Bytes
  requestTime : Int64
  checkTime : Int64
  session : Exchange → Reply
  artifact : Exchange → Reply

/-- `curl_easy_perform` hands over the chunks until the callback takes less
than it was given. -/
def deliver (receive : δ → Bytes → Os (Nat × δ)) :
    δ → List Bytes → Os (Bool × δ)
  | d, [] => return (true, d)
  | d, chunk :: chunks => do
      let (taken, d) ← receive d chunk
      if taken = chunk.length then deliver receive d chunks
      else return (false, d)

def perform (reply : Reply) (response : Buffer) : Os (Result × Buffer) := do
  let (delivered, response) ← deliver
    (fun b chunk => (receiveMemory chunk 1 chunk.length).run b) response
    reply.chunks
  if !(reply.transferred && delivered) then return (.networkError, response)
  if reply.status = 401 ∨ reply.status = 403 then
    return (.authorizationDenied, response)
  if reply.status ≥ 200 ∧ reply.status < 300 then return (.ok, response)
  return (.networkError, response)

/-- `download`; the hash state is the bytes hashed so far. -/
structure Download where
  expected : Int
  written : Int
  hash : Bytes
  failed : Bool

def receiveFile (file : FileRef) (d : Download) (p : Bytes)
    (size count : Nat) : Os (Nat × Download) :=
  match transferLength size count with
  | none => return (0, d)
  | some n => do
      if n > ((d.expected - d.written) % sizeRange).toNat then
        return (0, { d with failed := true })
      if ← writeAll file (p.take n) then
        return (n, { d with hash := d.hash ++ p.take n,
                            written := d.written + n })
      else return (0, { d with failed := true })

def encodeRequest (q : Request) (nonce license : Bytes) (now : Int64) :
    Filling Bool := do
  if ¬0 ≤ now then return false
  allOf [bPut requestMagic, bU16 1, bI64 now, bPut nonce,
    bString (q.productId.getD []), bString (q.channel.getD []),
    bString (q.loaderVersion.getD []), bString (q.installationId.getD []),
    bString license]

def findKey (keys : List PublicKey) (keyId : Bytes) : Option PublicKey :=
  keys.find? fun key => key.keyId = some keyId

/-- `rymga_loader_artifact_release`. -/
def Platform.artifactRelease (platform : Platform) (runtimeDirectory : Bytes)
    (artifact : Artifact) : Os Unit := do
  match artifact.path with
  | some (directory, file) =>
      let _ ← platform.removeFile runtimeDirectory directory file
  | none => pure ()
  match artifact.directory with
  | some directory => platform.removeDirectory runtimeDirectory directory
  | none => pure ()

/-- What `download_artifact` knows when it reaches its cleanup label. -/
structure Fetched where
  result : Result
  finalCreated : Bool
  artifact : Option Artifact

def artifactExchange (q : Request) (encodedManifest : Bytes) : Exchange where
  url := q.endpoint.getD [] ++ ascii "/v1/artifact".toList
  headers := [ascii "Authorization: RymgaSession ".toList ++
    Base64.encodeUrl encodedManifest]
  body := none
  caBundlePath := q.caBundlePath
  timeoutSeconds := q.timeoutSeconds

/-- The part of `download_artifact` between opening the partial file and the
cleanup label. -/
def Platform.fetchArtifact (platform : Platform) (sodium : Sodium)
    (q : Request) (m : Manifest) (encodedManifest : Bytes)
    (network : Exchange → Reply) (name : Name) (file : FileRef) :
    Os Fetched := do
  if !(← sys .allocate) then return ⟨.outOfMemory, false, none⟩
  if !(← sys .setup) then return ⟨.outOfMemory, false, none⟩
  if !(← sys .allocate) then return ⟨.outOfMemory, false, none⟩
  if !(← sys .allocate) then return ⟨.outOfMemory, false, none⟩
  let reply := network (artifactExchange q encodedManifest)
  let (delivered, d) ← deliver
    (fun d chunk => receiveFile file d chunk 1 chunk.length)
    ⟨m.artifactSize.toInt, 0, [], false⟩ reply.chunks
  if !(reply.transferred && delivered) ∨ reply.status < 200 ∨
      reply.status ≥ 300 ∨ d.failed ∨ d.written ≠ d.expected ∨
      sodium.sha256 d.hash ≠ m.hash then
    return ⟨.integrityError, false, none⟩
  let synced ← sys (.fsync file)
  let closed ← sys .close
  if !(synced && closed) then return ⟨.ioError, false, none⟩
  if !(← platform.rename q.runtimeDirectory name artifactPart m.filename) then
    return ⟨.ioError, false, none⟩
  if !(← sys .allocate) then return ⟨.outOfMemory, true, none⟩
  let (directoryCopied, pathCopied) ← sys .duplicatePaths
  let artifact : Artifact :=
    { directory := if directoryCopied then some name else none,
      path := if pathCopied then some (name, m.filename) else none }
  if !(directoryCopied && pathCopied) then
    platform.artifactRelease q.runtimeDirectory artifact
    return ⟨.outOfMemory, true, none⟩
  return ⟨.ok, true, some artifact⟩

def Platform.downloadArtifact (platform : Platform) (sodium : Sodium)
    (q : Request) (m : Manifest) (encodedManifest : Bytes)
    (network : Exchange → Reply) : Os (Result × Option Artifact) := do
  if !(← sys .directoryOk) then return (.ioError, none)
  match ← platform.makeTempDirectory q.runtimeDirectory with
  | none => return (.ioError, none)
  | some name =>
      let templatePath := slashed q.runtimeDirectory name
      if (slashed templatePath artifactPart).length ≥ platform.pathMax ∨
          (slashed templatePath m.filename).length ≥ platform.pathMax ∨
          (artifactExchange q encodedManifest).url.length ≥
            platform.pathMax then
        platform.removeDirectory q.runtimeDirectory name
        return (.ioError, none)
      match ← platform.createFile q.runtimeDirectory name artifactPart with
      | .opened file =>
          let fetched ← platform.fetchArtifact sodium q m encodedManifest
            network name file
          if fetched.result ≠ .ok then
            let _ ← platform.removeFile q.runtimeDirectory name artifactPart
            if fetched.finalCreated then
              let _ ← platform.removeFile q.runtimeDirectory name m.filename
            platform.removeDirectory q.runtimeDirectory name
          return (fetched.result, fetched.artifact)
      | _ =>
          platform.removeDirectory q.runtimeDirectory name
          return (.ioError, none)

def artifactRelease (runtimeDirectory : Bytes) (artifact : Artifact) :
    Os Unit :=
  posix.artifactRelease runtimeDirectory artifact

@[simp] theorem posix_artifactRelease {runtimeDirectory : Bytes}
    {artifact : Artifact} : posix.artifactRelease runtimeDirectory artifact =
      artifactRelease runtimeDirectory artifact := rfl

def downloadArtifact (sodium : Sodium) (q : Request) (m : Manifest)
    (encodedManifest : Bytes) (network : Exchange → Reply) :
    Os (Result × Option Artifact) :=
  posix.downloadArtifact sodium q m encodedManifest network

/-- The argument checks in front of the first call. -/
def requestTextsOk (q : Request) : Bool :=
  match q.endpoint with
  | none => false
  | some endpoint =>
      (ascii "https://".toList).isPrefixOf endpoint && !endpoint.contains 0x3F &&
        !endpoint.contains 0x23 && identifier q.productId 128 &&
        identifier q.channel 64 && textField q.loaderVersion 64 &&
        textField q.installationId 128

/-- The argument checks between the directory check and `sodium_init`. -/
def requestLimitsOk (q : Request) (license : Option Bytes) : Bool :=
  match q.trustedKeys, license with
  | some keys, some license =>
      keys.length ≠ 0 && keys.length ≤ 16 && 1 ≤ q.timeoutSeconds &&
        q.timeoutSeconds ≤ 120 && license.length ≠ 0 && license.length ≤ 4096
  | _, _ => false

/-- The loop over the trusted keys: each has an identifier that no earlier key
has. -/
def trustedKeysOk : List PublicKey → List PublicKey → Bool
  | _, [] => true
  | previous, key :: keys =>
      identifier key.keyId 64 &&
        (previous.all fun earlier => earlier.keyId ≠ key.keyId) &&
        trustedKeysOk (previous ++ [key]) keys

def sessionExchange (q : Request) (body : Bytes) : Exchange where
  url := q.endpoint.getD [] ++ ascii "/v1/session".toList
  headers := [ascii
    "Content-Type: application/vnd.rymga.loader-session-request".toList]
  body := some body
  caBundlePath := q.caBundlePath
  timeoutSeconds := q.timeoutSeconds

def clockSkewSeconds : Int64 := 120

/-- The freshness test of `rymga_loader_acquire`, in the code's arithmetic. -/
def outsideWindow (m : Manifest) (now : Int64) : Bool :=
  (m.issuedAt > now && m.issuedAt - now > clockSkewSeconds) ||
    (now > m.expiresAt && now - m.expiresAt > clockSkewSeconds)

def ensurePrivateDirectory : Os Bool := do
  if ← sys .makeDirectory then sys .directoryOk else return false

/-- The part of `rymga_loader_acquire` after the stale directories have been
cleaned up. -/
def openSession (sodium : Sodium) (q : Request) (keys : List PublicKey)
    (license : Bytes) (inputs : Inputs) : Os (Result × Option Artifact) := do
  if !(← sys .setup) then return (.networkError, none)
  let (encoded, request) ←
    (encodeRequest q inputs.nonce license inputs.requestTime).run
      (.empty 8192)
  let exchange := sessionExchange q request.data
  if !encoded ∨ exchange.url.length ≥ pathMax then return (.outOfMemory, none)
  if !(← sys .allocate) then return (.networkError, none)
  if !(← sys .allocate) then return (.outOfMemory, none)
  let (result, response) ← perform (inputs.session exchange) (.empty 4096)
  if result ≠ .ok then return (result, none)
  match parseManifest response.data with
  | none => return (.protocolError, none)
  | some m =>
      if inputs.nonce ≠ m.nonce ∨ q.productId ≠ some m.product ∨
          q.channel ≠ some m.channel then
        return (.protocolError, none)
      match findKey keys m.keyId with
      | none => return (.signatureError, none)
      | some key =>
          if outsideWindow m inputs.checkTime ∨
              !sodium.verifyDetached m.signature
                (response.data.take m.signedLength) key.publicKey then
            return (.signatureError, none)
          downloadArtifact sodium q m response.data inputs.artifact

/-- `rymga_loader_acquire`, with what it stores through `artifact_out`. -/
def acquire (sodium : Sodium) (request : Option Request)
    (license : Option Bytes) (inputs : Inputs) :
    Os (Result × Option Artifact) :=
  match request with
  | none => return (.invalidArgument, none)
  | some q => do
      if !requestTextsOk q then return (.invalidArgument, none)
      if !(← ensurePrivateDirectory) then return (.invalidArgument, none)
      if !requestLimitsOk q license then return (.invalidArgument, none)
      if !(← sys .setup) then return (.invalidArgument, none)
      if !trustedKeysOk [] (q.trustedKeys.getD []) then
        return (.invalidArgument, none)
      cleanupStale 86400
      openSession sodium q (q.trustedKeys.getD []) (license.getD []) inputs

end RymgaLoader.Native
