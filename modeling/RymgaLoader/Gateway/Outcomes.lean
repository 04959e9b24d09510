import RymgaLoader.Gateway.Authorization
import RymgaLoader.Gateway.License

/-!
# What the endpoints answer

For every input, the status of the download endpoint and when the session
endpoint answers with a bad request.  Both answers depend on more than the
caller's input: an exception of the signature verifier is not handled, and the
names of the configuration are checked only when a manifest is built.
-/

namespace RymgaLoader.Gateway

open Protocol

namespace Deployment

variable {gateway : Deployment}

/-- The header carries a manifest under the gateway's key identifier for whose
signature the verifier throws. -/
def Unverifiable (gateway : Deployment) (authorization : Option JavaString) :
    Prop :=
  ∃ manifest message, gateway.decodeAuthorization authorization =
      .ok manifest ∧ manifest.keyId = gateway.configuration.keyId ∧
    manifest.unsignedBytes = .ok message ∧
    gateway.ed25519.verification message manifest.signature = none

/-- The download is answered, and refused where the signature of a decodable
manifest is not valid. -/
def Answered (gateway : Deployment) (authorization : Option JavaString)
    (now : Int64) : Prop :=
  (∃ response, gateway.downloadArtifact authorization now = .ok response ∧
    response.status ∈ [200, 403, 404, 503]) ∧
  ∀ manifest message,
    gateway.decodeAuthorization authorization = .ok manifest →
    manifest.unsignedBytes = .ok message →
    gateway.ed25519.verification message manifest.signature ≠ some true →
      ∃ response, gateway.downloadArtifact authorization now = .ok response ∧
        response.status = 403

/-- What reading the header can throw. -/
private theorem decodeAuthorization_error {authorization : Option JavaString}
    {exception : GatewayException}
    (failed : gateway.decodeAuthorization authorization = .error exception) :
    downloadFailure exception = .ok (statusOnly 403) := by
  unfold decodeAuthorization at failed
  split at failed
  · cases failed
    rfl
  unfold demand at failed
  split at failed
  · dsimp only [bind, Except.bind] at failed
    split at failed
    · cases failed
      rfl
    · rename_i encoded _
      cases decoded : SessionManifest.decode gateway.jdk encoded with
      | ok manifest =>
          rw [decoded] at failed
          cases failed
      | error refused =>
          rw [decoded] at failed
          cases failed
          rfl
  · cases failed
    rfl

private theorem exists_unsignedBytes {jdk : CaseMapping}
    (manifest : SessionManifest jdk) :
    ∃ message, manifest.unsignedBytes = .ok message := by
  obtain ⟨fields, valid, spelled⟩ := manifest.exists_fields
  exact ⟨_, SessionManifest.encodeUnsigned_eq_ok valid spelled⟩

private theorem authorizes_eq {manifest : SessionManifest gateway.jdk}
    {message : Bytes} (now : Int64)
    (unsigned : manifest.unsignedBytes = .ok message)
    (same : manifest.keyId = gateway.configuration.keyId) :
    gateway.authorizes manifest now =
      match gateway.ed25519.verification message manifest.signature with
      | none => .error (.illegalState "could not verify manifest")
      | some valid => .ok (valid &&
          !(manifest.issuedAt > now || manifest.expiresAt < now)) := by
  rw [authorizes, if_neg (not_not.mpr same), verify, unsigned]
  change (gateway.ed25519.verify message manifest.signature >>= _) = _
  unfold Ed25519.verify
  cases gateway.ed25519.verification message manifest.signature with
  | none => rfl
  | some valid => cases valid <;> rfl

private theorem serve_of_authorizes {authorization : Option JavaString}
    {now : Int64} {manifest : SessionManifest gateway.jdk} {granted : Bool}
    (decoded : gateway.decodeAuthorization authorization = .ok manifest)
    (authorized : gateway.authorizes manifest now = .ok granted) :
    ∃ response, gateway.downloadArtifact authorization now = .ok response ∧
      response.status ∈ [200, 403, 404, 503] ∧
      (granted = false → response.status = 403) := by
  have served : gateway.serve authorization now =
      if granted then
        gateway.resolveForManifest manifest.artifactId manifest.artifactSize
          manifest.artifactSha256 >>= fun artifact =>
            pure (noStore ⟨200, [("Content-Type", "application/java-archive"),
              ("Content-Length", toString artifact.size)], .stream artifact⟩)
      else pure (statusOnly 403) := by
    rw [serve, decoded]
    change (gateway.authorizes manifest now >>= _) = _
    rw [authorized]
    rfl
  unfold downloadArtifact
  rw [served]
  cases granted with
  | false => exact ⟨statusOnly 403, rfl, by decide, fun _ => rfl⟩
  | true =>
      unfold resolveForManifest
      rw [if_pos rfl]
      split
      · exact ⟨statusOnly 404, rfl, by decide, by simp⟩
      · exact ⟨_, rfl, List.mem_cons_self, by simp⟩

/-- Every download is answered, but for the headers whose signature makes the
verifier throw. -/
theorem downloadArtifact_answered_iff (gateway : Deployment)
    (authorization : Option JavaString) (now : Int64) :
    gateway.Answered authorization now ↔
      ¬gateway.Unverifiable authorization := by
  cases decoded : gateway.decodeAuthorization authorization with
  | error exception =>
      have refused : gateway.downloadArtifact authorization now =
          .ok (statusOnly 403) := by
        refine tryCatch_eq_ok_iff.mpr (Or.inr ⟨exception, ?_,
          decodeAuthorization_error decoded⟩)
        rw [serve, decoded]
        rfl
      have answered : gateway.Answered authorization now :=
        ⟨⟨_, refused, by decide⟩, fun _ _ _ _ _ => ⟨_, refused, rfl⟩⟩
      refine iff_of_true answered ?_
      rintro ⟨manifest, message, other, -⟩
      cases decoded.symm.trans other
  | ok manifest =>
      obtain ⟨message, unsigned⟩ := exists_unsignedBytes manifest
      have only : ∀ {other bytes},
          gateway.decodeAuthorization authorization = .ok other →
          other.unsignedBytes = .ok bytes → other = manifest ∧
            bytes = message := by
        intro other bytes again others
        cases decoded.symm.trans again
        exact ⟨rfl, Except.ok.inj (others.symm.trans unsigned)⟩
      by_cases same : manifest.keyId = gateway.configuration.keyId
      · have authorized := authorizes_eq now unsigned same
        cases verified : gateway.ed25519.verification message
            manifest.signature with
        | none =>
            rw [verified] at authorized
            have escapes : gateway.downloadArtifact authorization now =
                .error (.illegalState "could not verify manifest") := by
              rw [downloadArtifact, serve, decoded]
              change tryCatch (gateway.authorizes manifest now >>= _) _ = _
              rw [authorized]
              rfl
            refine iff_of_false ?_ (not_not.mpr ⟨manifest, message, decoded,
              same, unsigned, verified⟩)
            rintro ⟨⟨response, answered, -⟩, -⟩
            rw [escapes] at answered
            cases answered
        | some valid =>
            rw [verified] at authorized
            obtain ⟨response, answered, status, denied⟩ :=
              serve_of_authorizes decoded authorized
            refine iff_of_true ⟨⟨response, answered, status⟩, ?_⟩ ?_
            · intro other bytes again others invalid
              obtain ⟨rfl, rfl⟩ := only again others
              rw [verified] at invalid
              refine ⟨response, answered, denied ?_⟩
              cases valid with
              | false => rfl
              | true => exact absurd rfl invalid
            · rintro ⟨other, bytes, again, -, others, throws⟩
              obtain ⟨rfl, rfl⟩ := only again others
              rw [verified] at throws
              cases throws
      · have authorized : gateway.authorizes manifest now = .ok false := by
          rw [authorizes, if_pos same]
          rfl
        obtain ⟨response, answered, status, denied⟩ :=
          serve_of_authorizes decoded authorized
        refine iff_of_true ⟨⟨response, answered, status⟩,
          fun _ _ _ _ _ => ⟨response, answered, denied rfl⟩⟩ ?_
        rintro ⟨other, bytes, again, named, -⟩
        cases decoded.symm.trans again
        exact same named

/-- A signature scheme whose verifier throws for a scalar that is not
reduced. -/
def strictEd25519 : Ed25519 where
  signature _ := some (List.replicate 64 2)
  verification _ signature :=
    if signature = List.replicate 64 0xFF then none
    else some (signature = List.replicate 64 2)
  signature_length := smallEd25519.signature_length

/-- The small gateway under that scheme. -/
def strictGateway : Deployment where
  jdk := asciiCaseMapping
  ed25519 := strictEd25519
  sha256 := smallGateway.sha256
  configuration := smallConfiguration
  located := .ok smallChannel
  configured := smallGateway.configured
  limits := smallGateway.limits
  keys := smallGateway.keys
  loaded := rfl

/-- A manifest of the small gateway with a signature of `0xFF` bytes. -/
def forgedHeader : JavaString :=
  authorizationStem ++ (Base64.encodeUrl { smallLayout with
    signature := List.replicate 64 0xFF }.layout).map UInt8.toUInt16

theorem downloadArtifact_escapes :
    ¬strictGateway.Answered (some forgedHeader) 150 := by
  rintro ⟨⟨response, answered, -⟩, -⟩
  have escapes : (strictGateway.downloadArtifact (some forgedHeader)
      150).toOption.isNone = true := by
    decide +kernel
  rw [answered] at escapes
  cases escapes

/-- The seconds an `Instant` can hold. -/
def InstantSecond (now : Int64) : Prop :=
  -31557014167219200 ≤ now.toInt ∧ now.toInt ≤ 31556889864403199

/-- The body is a request with a timestamp inside the configured window. -/
def Timely (gateway : Deployment) (now : Int64) (encodedRequest : Bytes)
    (request : SessionRequest) : Prop :=
  SessionRequest.decode encodedRequest = .ok request ∧
    |request.timestamp.toInt - now.toInt| ≤
      gateway.configuration.clockSkewSeconds.toInt

/-- A timely request that the provider accepts, for the configured product and
channel. -/
def Entitled (gateway : Deployment) (call : SessionCall)
    (request : SessionRequest) : Prop :=
  gateway.Timely call.now call.encodedRequest request ∧
    call.licenseValidator (.ofRequest request) = .ok true ∧
    request.productId = gateway.configuration.artifactProductId ∧
    request.channel = gateway.configuration.artifactChannel

/-- The session endpoint answers with a bad request exactly where there is
one, and with a manifest where one is due. -/
def Responsive (gateway : Deployment) (call : SessionCall) : Prop :=
  ((∃ response, gateway.create call = .ok response ∧
      response.status = 400) ↔
    ¬∃ request, gateway.Timely call.now call.encodedRequest request) ∧
  ∀ request, gateway.Entitled call request →
    ∃ issued : SessionManifest gateway.jdk, gateway.Granted call issued

private theorem window_iff {now timestamp : Int64}
    (clock : InstantSecond now) :
    (now - gateway.configuration.clockSkewSeconds ≤ timestamp ∧
        timestamp ≤ now + gateway.configuration.clockSkewSeconds) ↔
      |timestamp.toInt - now.toInt| ≤
        gateway.configuration.clockSkewSeconds.toInt := by
  obtain ⟨low, high⟩ := (gateway.configuration.withinLimits
    gateway.limits).clockSkewSeconds
  obtain ⟨first, last⟩ := clock
  have difference : (now - gateway.configuration.clockSkewSeconds).toInt =
      now.toInt - gateway.configuration.clockSkewSeconds.toInt := by
    rw [Int64.toInt_sub]
    apply Int.bmod_eq_of_le <;> omega
  have sum : (now + gateway.configuration.clockSkewSeconds).toInt =
      now.toInt + gateway.configuration.clockSkewSeconds.toInt := by
    rw [Int64.toInt_add]
    apply Int.bmod_eq_of_le <;> omega
  rw [Int64.le_iff_toInt_le, Int64.le_iff_toInt_le, difference, sum, abs_le]
  omega

/-- The manifest of a session, as `issue` fills it in. -/
def manifestData (gateway : Deployment) (call : SessionCall)
    (request : SessionRequest) : ManifestData where
  keyId := gateway.configuration.keyId
  requestNonce := request.requestNonce
  sessionId := call.sessionId
  issuedAt := call.now
  expiresAt := call.now + gateway.configuration.sessionTtlSeconds
  productId := request.productId
  channel := request.channel
  artifactId := gateway.configured.id
  originalFilename := gateway.configured.filename
  artifactSize := gateway.configured.size
  artifactSha256 := gateway.configured.sha256
  signature := List.replicate ed25519SignatureBytes 0

/-- The constructor of the manifest accepts the configured names, and no
moment before the epoch. -/
theorem check_manifestData_iff {call : SessionCall}
    (request : SessionRequest)
    (hashes : ∀ bytes, (gateway.sha256 bytes).length = sha256Bytes)
    (clock : InstantSecond call.now)
    (drawn : call.sessionId.length = sessionIdBytes) :
    (gateway.manifestData call request).check gateway.jdk = .ok () ↔
      Publishable gateway ∧ 0 ≤ call.now := by
  obtain ⟨file, configured, positive, small⟩ := gateway.configured_eq
  have named : gateway.configured.id = gateway.configuration.artifactId ∧
      gateway.configured.filename =
        gateway.configuration.artifactFilename := by
    rw [configured]
    exact ⟨rfl, rfl⟩
  constructor
  · intro checked
    obtain ⟨fields, valid, spelled⟩ := ManifestData.check_eq_ok_iff.mp checked
    refine ⟨⟨Wire.requireIdentifier_eq_ok_iff.mpr ⟨_, spelled.keyId,
      valid.keyId⟩, ?_, ?_⟩, ?_⟩
    · rw [← named.1]
      exact Wire.requireIdentifier_eq_ok_iff.mpr ⟨_, spelled.artifactId,
        valid.artifactId⟩
    · rw [← named.2]
      exact Wire.requireFilename_eq_ok_iff.mpr ⟨_, spelled.originalFilename,
        valid.originalFilename⟩
    · have issued := valid.issuedAt
      rw [← spelled.issuedAt] at issued
      exact issued
  · rintro ⟨publishable, epoch⟩
    obtain ⟨asked, askedValid, askedSpelled⟩ := request.exists_fields
    obtain ⟨keyId, keySpelled, keyOk⟩ :=
      Wire.requireIdentifier_eq_ok_iff.mp publishable.keyId
    obtain ⟨artifactId, artifactSpelled, artifactOk⟩ :=
      Wire.requireIdentifier_eq_ok_iff.mp publishable.artifactId
    obtain ⟨filename, filenameSpelled, filenameOk⟩ :=
      Wire.requireFilename_eq_ok_iff.mp publishable.filename
    rw [← named.1] at artifactSpelled
    rw [← named.2] at filenameSpelled
    obtain ⟨ttlLow, ttlHigh⟩ := (gateway.configuration.withinLimits
      gateway.limits).sessionTtlSeconds
    have expires : (call.now +
        gateway.configuration.sessionTtlSeconds).toInt = call.now.toInt +
          gateway.configuration.sessionTtlSeconds.toInt := by
      obtain ⟨first, last⟩ := clock
      rw [Int64.toInt_add]
      apply Int.bmod_eq_of_le <;> omega
    have size : gateway.configured.size.toInt = file.content.length := by
      rw [configured]
      exact file.toInt_size
    refine ManifestData.check_eq_ok_iff.mpr ⟨⟨keyId, asked.requestNonce,
      call.sessionId, call.now,
      call.now + gateway.configuration.sessionTtlSeconds, asked.productId,
      asked.channel, artifactId, filename, gateway.configured.size,
      gateway.configured.sha256, List.replicate ed25519SignatureBytes 0⟩,
      ⟨keyOk, askedValid.requestNonce, drawn, epoch, ?_, askedValid.productId,
        askedValid.channel, artifactOk, filenameOk, ⟨?_, ?_⟩, ?_,
        List.length_replicate⟩,
      ⟨keySpelled, askedSpelled.requestNonce, rfl, rfl, rfl,
        askedSpelled.productId, askedSpelled.channel, artifactSpelled,
        filenameSpelled, rfl, rfl, rfl⟩⟩
    · rw [Int64.lt_iff_toInt_lt]
      dsimp only
      omega
    · rw [Int64.le_iff_toInt_le]
      dsimp only
      rw [size]
      exact Int.natCast_nonneg _
    · dsimp only
      rw [size]
      exact small
    · dsimp only
      rw [configured]
      exact hashes _

private theorem create_of_prepare_error {call : SessionCall}
    {request : SessionRequest} {exception : GatewayException}
    (decoded : SessionRequest.decode call.encodedRequest = .ok request)
    (failed : gateway.prepare call.licenseValidator call.now call.sessionId
      request = .error exception) :
    gateway.create call = sessionFailure exception := by
  have thrown : gateway.grant call.licenseValidator call.now call.sessionId
      call.encodedRequest = .error exception := by
    unfold grant issue
    rw [decoded]
    change ((gateway.prepare _ _ _ request >>= _) >>= _) = _
    rw [failed]
    rfl
  rw [create, createSession, thrown]
  rfl

/-- The step at which `issue` gives up on a decoded request. -/
private theorem prepare_cases (gateway : Deployment) {call : SessionCall}
    (request : SessionRequest) (clock : InstantSecond call.now) :
    (¬|request.timestamp.toInt - call.now.toInt| ≤
        gateway.configuration.clockSkewSeconds.toInt ∧
      ∃ exception, gateway.prepare call.licenseValidator call.now
        call.sessionId request = .error (.protocol exception)) ∨
    |request.timestamp.toInt - call.now.toInt| ≤
        gateway.configuration.clockSkewSeconds.toInt ∧
      ((∃ exception, call.licenseValidator (.ofRequest request) =
          .error exception ∧ gateway.prepare call.licenseValidator call.now
            call.sessionId request = .error exception) ∨
        (call.licenseValidator (.ofRequest request) = .ok false ∧
          gateway.prepare call.licenseValidator call.now call.sessionId
            request = .error .licenseDenied) ∨
        call.licenseValidator (.ofRequest request) = .ok true ∧
          (¬(request.productId = gateway.configuration.artifactProductId ∧
              request.channel = gateway.configuration.artifactChannel) ∧
            gateway.prepare call.licenseValidator call.now call.sessionId
              request = .error .artifactNotFound ∨
          (request.productId = gateway.configuration.artifactProductId ∧
              request.channel = gateway.configuration.artifactChannel) ∧
            gateway.prepare call.licenseValidator call.now call.sessionId
              request = protocolCall (SessionManifest.make gateway.jdk
                (gateway.manifestData call request)))) := by
  have inside : ¬(request.timestamp <
      call.now - gateway.configuration.clockSkewSeconds ∨
      request.timestamp >
        call.now + gateway.configuration.clockSkewSeconds) ↔
      |request.timestamp.toInt - call.now.toInt| ≤
        gateway.configuration.clockSkewSeconds.toInt := by
    rw [← window_iff clock, not_or, Int64.not_lt, gt_iff_lt, Int64.not_lt]
  unfold prepare demand
  by_cases timely : |request.timestamp.toInt - call.now.toInt| ≤
      gateway.configuration.clockSkewSeconds.toInt
  · refine Or.inr ⟨timely, ?_⟩
    rw [if_pos (inside.mpr timely)]
    dsimp only [bind, Except.bind]
    cases verdict : call.licenseValidator (.ofRequest request) with
    | error exception => exact Or.inl ⟨exception, rfl, rfl⟩
    | ok accepted =>
        cases accepted with
        | false => exact Or.inr (Or.inl ⟨rfl, rfl⟩)
        | true =>
            refine Or.inr (Or.inr ⟨rfl, ?_⟩)
            by_cases same :
                request.productId = gateway.configuration.artifactProductId ∧
                request.channel = gateway.configuration.artifactChannel
            · refine Or.inr ⟨same, ?_⟩
              unfold resolve
              rw [if_neg (by simp [same])]
              rfl
            · refine Or.inl ⟨same, ?_⟩
              unfold resolve
              rw [if_pos (by
                rw [not_and_or] at same
                exact same.imp (fun other => Ne.symm other)
                  (fun other => Ne.symm other))]
              rfl
  · refine Or.inl ⟨timely, ?_⟩
    rw [if_neg (fun holds => timely (inside.mp holds))]
    exact ⟨_, rfl⟩

/-- Bytes that are no request are answered as they should be. -/
private theorem responsive_of_undecodable {call : SessionCall}
    {exception : ProtocolException}
    (failed : SessionRequest.decode call.encodedRequest = .error exception) :
    gateway.Responsive call ∧ ¬∃ request, gateway.Entitled call request := by
  have bad : gateway.create call = .ok (statusOnly 400) := by
    rw [create, createSession, grant, failed]
    rfl
  have none : ∀ request,
      ¬gateway.Timely call.now call.encodedRequest request := by
    rintro request ⟨decoded, -⟩
    cases failed.symm.trans decoded
  refine ⟨⟨iff_of_true ⟨_, bad, rfl⟩ ?_, ?_⟩, ?_⟩
  · rintro ⟨request, timely⟩
    exact none request timely
  · intro request entitled
    exact absurd entitled.1 (none request)
  · rintro ⟨request, entitled⟩
    exact none request entitled.1

/-- A request that never reaches the manifest is answered as it should be. -/
private theorem responsive_iff_of_refused {call : SessionCall}
    {request : SessionRequest} {response : Response}
    (decoded : SessionRequest.decode call.encodedRequest = .ok request)
    (answered : gateway.create call = .ok response)
    (status : response.status = 400 ↔
      ¬|request.timestamp.toInt - call.now.toInt| ≤
        gateway.configuration.clockSkewSeconds.toInt)
    (refused : ¬gateway.Entitled call request) :
    gateway.Responsive call ↔
      ((∃ request, gateway.Entitled call request) →
        Publishable gateway ∧ 0 ≤ call.now) := by
  have only : ∀ {other},
      SessionRequest.decode call.encodedRequest = .ok other →
        other = request :=
    fun again => Except.ok.inj (again.symm.trans decoded)
  refine iff_of_true ⟨⟨?_, ?_⟩, ?_⟩ ?_
  · rintro ⟨other, again, bad⟩ ⟨asked, same, timely⟩
    cases answered.symm.trans again
    obtain rfl := only same
    exact status.mp bad timely
  · intro untimely
    refine ⟨response, answered, status.mpr fun timely => ?_⟩
    exact untimely ⟨request, decoded, timely⟩
  · intro other entitled
    obtain rfl := only entitled.1.1
    exact absurd entitled refused
  · rintro ⟨other, entitled⟩
    obtain rfl := only entitled.1.1
    exact absurd entitled refused

/-- A request that is due a manifest gets it where the manifest can be made. -/
private theorem responsive_iff_of_entitled {call : SessionCall}
    {request : SessionRequest}
    (hashes : ∀ bytes, (gateway.sha256 bytes).length = sha256Bytes)
    (signs : ∀ message, (gateway.ed25519.signature message).isSome = true)
    (clock : InstantSecond call.now)
    (drawn : call.sessionId.length = sessionIdBytes)
    (entitled : gateway.Entitled call request)
    (made : gateway.prepare call.licenseValidator call.now call.sessionId
      request = protocolCall (SessionManifest.make gateway.jdk
        (gateway.manifestData call request))) :
    gateway.Responsive call ↔
      ((∃ request, gateway.Entitled call request) →
        Publishable gateway ∧ 0 ≤ call.now) := by
  have decoded := entitled.1.1
  have due := check_manifestData_iff request hashes clock drawn
  cases built : SessionManifest.make gateway.jdk
      (gateway.manifestData call request) with
  | error exception =>
      rw [built] at made
      have bad : gateway.create call = .ok (statusOnly 400) :=
        create_of_prepare_error decoded made
      refine iff_of_false ?_ ?_
      · rintro ⟨status, -⟩
        exact status.mp ⟨_, bad, rfl⟩ ⟨request, entitled.1⟩
      · intro publishable
        have checked := due.mpr (publishable ⟨request, entitled⟩)
        have again := SessionManifest.make_eq_ok_iff.mpr
          (rfl : (SessionManifest.mk (gateway.manifestData call request)
            checked).toManifestData = _)
        cases built.symm.trans again
  | ok manifest =>
      rw [built] at made
      have data := SessionManifest.make_eq_ok_iff.mp built
      have checked := manifest.checked
      rw [data] at checked
      obtain ⟨message, unsigned⟩ := exists_unsignedBytes manifest
      obtain ⟨signature, signed⟩ :=
        Option.isSome_iff_exists.mp (signs message)
      obtain ⟨issued, granted, -, -⟩ := granted_of_prepared decoded
        (prepare_eq_ok_iff.mp made) unsigned signed
      have granting := granted
      obtain ⟨response, encoded, answered, ok, -⟩ := granting
      refine iff_of_true ⟨iff_of_false ?_ ?_, fun _ _ =>
        ⟨issued, granted⟩⟩ fun _ => due.mp checked
      · rintro ⟨other, again, bad⟩
        cases answered.symm.trans again
        rw [ok] at bad
        cases bad
      · exact not_not.mpr ⟨request, entitled.1⟩

/-- The session endpoint answers as it should exactly where the names it has
to publish are protocol fields and the clock has passed the epoch, or where no
manifest is due. -/
theorem createSession_responsive_iff (gateway : Deployment)
    (provider : LicenseProvider) (call : SessionCall)
    (asked : call.licenseValidator = provider.accepts)
    (hashes : ∀ bytes, (gateway.sha256 bytes).length = sha256Bytes)
    (signs : ∀ message, (gateway.ed25519.signature message).isSome = true)
    (clock : InstantSecond call.now)
    (drawn : call.sessionId.length = sessionIdBytes) :
    gateway.Responsive call ↔
      ((∃ request, gateway.Entitled call request) →
        Publishable gateway ∧ 0 ≤ call.now) := by
  cases decoded : SessionRequest.decode call.encodedRequest with
  | error exception =>
      obtain ⟨responsive, none⟩ := responsive_of_undecodable decoded
      exact iff_of_true responsive fun due => absurd due none
  | ok request =>
      have refuse : ∀ {exception response},
          gateway.prepare call.licenseValidator call.now call.sessionId
            request = .error exception →
          sessionFailure exception = .ok response → _ := fun failed handled =>
        responsive_iff_of_refused decoded
          ((create_of_prepare_error decoded failed).trans handled)
      rcases gateway.prepare_cases request clock with
        ⟨late, exception, failed⟩ | ⟨timely, ⟨exception, thrown, failed⟩ |
          ⟨denied, failed⟩ | ⟨licensed, ⟨other, failed⟩ | ⟨same, made⟩⟩⟩
      · refine refuse failed rfl (iff_of_true rfl late) ?_
        rintro ⟨⟨-, timely⟩, -⟩
        exact late timely
      · have unavailable : exception = .licenseProviderUnavailable := by
          have verdict := provider.configuration.accepts_cases provider.send
            (.ofRequest request)
          rw [asked] at thrown
          change provider.configuration.accepts provider.send _ = _ at thrown
          rw [thrown] at verdict
          simpa using verdict
        subst unavailable
        refine refuse failed rfl (iff_of_false (by decide)
          (not_not.mpr timely)) ?_
        rintro ⟨-, licensed, -⟩
        cases thrown.symm.trans licensed
      · refine refuse failed rfl (iff_of_false (by decide)
          (not_not.mpr timely)) ?_
        rintro ⟨-, licensed, -⟩
        cases denied.symm.trans licensed
      · refine refuse failed rfl (iff_of_false (by decide)
          (not_not.mpr timely)) ?_
        rintro ⟨-, -, same⟩
        exact other same
      · exact responsive_iff_of_entitled hashes signs clock drawn
          ⟨⟨decoded, timely⟩, licensed, same⟩ made

/-- A mock provider that accepts the license of the small request. -/
def smallProvider : LicenseProvider where
  configuration := ⟨mockMode, true, java ['l'], unconfigured, unconfigured,
    3000⟩
  create _ := none
  send _ := none
  validated := by decide

/-- The small request, put to the mock provider. -/
def mockedCall : SessionCall :=
  { smallCall with licenseValidator := smallProvider.accepts }

theorem createSession_responsive_small :
    smallGateway.Responsive mockedCall :=
  (createSession_responsive_iff smallGateway smallProvider mockedCall rfl
    (fun _ => rfl) (fun _ => rfl) ⟨by decide, by decide⟩ rfl).mpr
    fun _ => ⟨⟨by decide, by decide, by decide⟩, by decide⟩

/-- The small gateway with a space in its key identifier. -/
def spacedGateway : Deployment where
  jdk := asciiCaseMapping
  ed25519 := smallEd25519
  sha256 := smallGateway.sha256
  configuration := { smallConfiguration with keyId := java ['k', ' ', '1'] }
  located := .ok smallChannel
  configured := smallGateway.configured
  limits := smallGateway.limits
  keys := smallGateway.keys
  loaded := rfl

theorem createSession_blames_request :
    ¬spacedGateway.Responsive mockedCall := by
  have status : (spacedGateway.create mockedCall).toOption.map (·.status) =
      some 400 := by
    decide +kernel
  have timestamp : (SessionRequest.decode
      mockedCall.encodedRequest).toOption.map (·.timestamp) = some 100 := by
    decide +kernel
  rintro ⟨blames, -⟩
  cases answered : spacedGateway.create mockedCall with
  | error exception =>
      rw [answered] at status
      cases status
  | ok response =>
      rw [answered] at status
      cases decoded : SessionRequest.decode mockedCall.encodedRequest with
      | error exception =>
          rw [decoded] at timestamp
          cases timestamp
      | ok request =>
          rw [decoded] at timestamp
          have moment : request.timestamp = 100 := Option.some.inj timestamp
          refine blames.mp ⟨response, answered, Option.some.inj status⟩
            ⟨request, decoded, ?_⟩
          rw [moment]
          decide

end Deployment

end RymgaLoader.Gateway
