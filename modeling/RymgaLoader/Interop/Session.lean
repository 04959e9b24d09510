import RymgaLoader.Gateway.Authorization
import RymgaLoader.Interop.Codecs
import RymgaLoader.Native.Guarantees

/-!
# Honest client and honest gateway

The gateway answers the encoded request of an admitted client with a manifest
that passes the client's checks, and serves the artifact for the header the
client derives from it.  Where the machine of the client does not fail, the
acquisition succeeds.
-/

namespace RymgaLoader.Interop

open Protocol Gateway Native

/-- Signatures and hashes are correct on both sides. -/
structure CorrectCryptography (gateway : Deployment) (sodium : Sodium)
    (publicKey : Bytes) : Prop where
  signs : ∀ message, ∃ signature,
    gateway.ed25519.signature message = some signature ∧
    gateway.ed25519.verification message signature = some true ∧
    sodium.verifyDetached signature message publicKey = true
  sameHash : sodium.sha256 = gateway.sha256
  hashLength : ∀ bytes, (gateway.sha256 bytes).length = sha256Bytes

/-- An admitted client of the configured product and channel that trusts the
gateway's key under its identifier. -/
structure Customer (gateway : Deployment) (q : Request) (license : Bytes)
    (key : PublicKey) : Prop where
  admitted : Admitted q (some license)
  product : ∀ bytes, q.productId = some bytes →
    Spells gateway.configuration.artifactProductId bytes
  channel : ∀ bytes, q.channel = some bytes →
    Spells gateway.configuration.artifactChannel bytes
  license : IsText 4096 license
  trusted : key ∈ q.trustedKeys.getD []
  keyId : ∃ bytes, key.keyId = some bytes ∧
    Spells gateway.configuration.keyId bytes

/-- The last second an `Instant` can hold. -/
def lastSecond : Int := 31556889864403199

/-- The call by which the gateway answers the client: the client's clock is
`offset` seconds ahead of the gateway's. -/
structure Answers (gateway : Deployment) (q : Request) (license : Bytes)
    (inputs : Inputs) (offset : Int) (call : SessionCall) : Prop where
  asked : call.encodedRequest =
    q.body inputs.nonce license inputs.requestTime
  nonce : inputs.nonce.length = nonceBytes
  sessionId : call.sessionId.length = sessionIdBytes
  accepted : ∀ request,
    SessionRequest.decode call.encodedRequest = .ok request →
      call.licenseValidator (.ofRequest request) = .ok true
  close : |offset| ≤ min gateway.configuration.clockSkewSeconds.toInt 120
  clocks : inputs.requestTime.toInt = call.now.toInt + offset
  epoch : 0 ≤ call.now ∧ 0 ≤ inputs.requestTime
  latest : call.now.toInt ≤ lastSecond

/-- The value of the `Authorization` header among header lines. -/
def authorizationHeader : List Bytes → Option JavaString
  | [] => none
  | line :: lines =>
      if (ascii "Authorization: ".toList).isPrefixOf line then
        some ((line.drop (ascii "Authorization: ".toList).length).map
          UInt8.toUInt16)
      else authorizationHeader lines

/-- The bytes of a response body; absent where streaming fails. -/
def content : Body → Option Bytes
  | .empty => some []
  | .bytes bytes => some bytes
  | .stream artifact => artifact.writeTo

/-- The network hands over what the gateway answered, in any chunks. -/
def Carries (answer : Throwing Response) (reply : Reply) : Prop :=
  ∀ response bytes, answer = .ok response →
    content response.body = some bytes →
      reply.transferred = true ∧ reply.status = response.status ∧
        reply.chunks.flatten = bytes

/-- The manifest that answers the client, as a field list. -/
structure Issued (gateway : Deployment) (sodium : Sodium) (q : Request)
    (inputs : Inputs) (key : PublicKey) (call : SessionCall)
    (fields : ManifestFields) : Prop where
  valid : fields.Valid
  granted : ∃ issued, gateway.Granted call issued ∧
    issued.toManifestData.Spells fields
  keyId : Spells gateway.configuration.keyId fields.keyId
  nonce : fields.requestNonce = inputs.nonce
  product : q.productId = some fields.productId
  channel : q.channel = some fields.channel
  issuedAt : fields.issuedAt = call.now
  expiresAt : fields.expiresAt =
    call.now + gateway.configuration.sessionTtlSeconds
  artifactId : Spells gateway.configured.id fields.artifactId
  artifactSize : fields.artifactSize = gateway.configured.size
  artifactSha256 : fields.artifactSha256 = gateway.configured.sha256
  verifies : gateway.ed25519.verification fields.unsignedLayout
    fields.signature = some true
  verifiesNative : sodium.verifyDetached fields.signature
    fields.unsignedLayout key.publicKey = true

variable {gateway : Deployment} {sodium : Sodium} {q : Request}
  {license : Bytes} {key : PublicKey} {inputs : Inputs} {offset : Int}
  {call : SessionCall}

private theorem exists_request
    (customer : Customer gateway q license key)
    (answers : Answers gateway q license inputs offset call) :
    ∃ product channel loader installation request,
      q.Texts product channel loader installation ∧
      SessionRequest.decode call.encodedRequest = .ok request ∧
      request.toRequestData.Spells ⟨inputs.requestTime, inputs.nonce, product,
        channel, loader, installation, license⟩ := by
  obtain ⟨product, channel, loader, installation, texts⟩ :=
    exists_texts customer.admitted.texts
  have valid := requestFields_valid texts answers.nonce answers.epoch.2
    customer.license
  obtain ⟨request, spelled⟩ := SessionRequest.exists_of_valid valid
  refine ⟨product, channel, loader, installation, request, texts, ?_, spelled⟩
  refine SessionRequest.decode_eq_ok_iff.mpr ⟨_, valid, spelled, ?_⟩
  rw [answers.asked, Request.body, texts.productId, texts.channelId,
    texts.loaderVersion, texts.installationId]
  rfl

private theorem window_accepts
    (answers : Answers gateway q license inputs offset call) :
    call.now - gateway.configuration.clockSkewSeconds ≤ inputs.requestTime ∧
      inputs.requestTime ≤
        call.now + gateway.configuration.clockSkewSeconds ∧
      (call.now + gateway.configuration.sessionTtlSeconds).toInt =
        call.now.toInt + gateway.configuration.sessionTtlSeconds.toInt := by
  have limits := gateway.configuration.withinLimits gateway.limits
  obtain ⟨skewLow, skewHigh⟩ := limits.clockSkewSeconds
  obtain ⟨ttlLow, ttlHigh⟩ := limits.sessionTtlSeconds
  have epoch := Int64.le_iff_toInt_le.mp answers.epoch.1
  have zero : (0 : Int64).toInt = 0 := rfl
  have latest := answers.latest
  have clocks := answers.clocks
  have bounds := abs_le.mp (answers.close.trans (min_le_left _ _))
  simp only [lastSecond] at latest
  have sum : ∀ seconds : Int64, 0 ≤ seconds.toInt → seconds.toInt ≤ 300 →
      (call.now + seconds).toInt = call.now.toInt + seconds.toInt := by
    intro seconds low high
    rw [Int64.toInt_add]
    apply Int.bmod_eq_of_le <;> omega
  have difference : (call.now - gateway.configuration.clockSkewSeconds).toInt =
      call.now.toInt - gateway.configuration.clockSkewSeconds.toInt := by
    rw [Int64.toInt_sub]
    apply Int.bmod_eq_of_le <;> omega
  refine ⟨?_, ?_, sum _ (by omega) ttlHigh⟩
  · rw [Int64.le_iff_toInt_le, difference]
    omega
  · rw [Int64.le_iff_toInt_le, sum _ skewLow skewHigh]
    omega

private theorem exists_unsigned (publishable : Publishable gateway)
    (crypto : CorrectCryptography gateway sodium key.publicKey)
    (customer : Customer gateway q license key)
    (answers : Answers gateway q license inputs offset call) :
    ∃ request fields, ∃ manifest : SessionManifest gateway.jdk,
      SessionRequest.decode call.encodedRequest = .ok request ∧
      gateway.Prepared call request manifest ∧ fields.Valid ∧
      manifest.toManifestData.Spells fields ∧
      Spells gateway.configuration.keyId fields.keyId ∧
      fields.requestNonce = inputs.nonce ∧
      q.productId = some fields.productId ∧
      q.channel = some fields.channel ∧ fields.issuedAt = call.now ∧
      fields.expiresAt =
        call.now + gateway.configuration.sessionTtlSeconds ∧
      Spells gateway.configured.id fields.artifactId ∧
      fields.artifactSize = gateway.configured.size ∧
      fields.artifactSha256 = gateway.configured.sha256 := by
  obtain ⟨product, channel, loader, installation, request, texts, decoded,
    spelled⟩ := exists_request customer answers
  obtain ⟨file, configured, positive, small⟩ := gateway.configured_eq
  obtain ⟨notEarly, notLate, expires⟩ := window_accepts answers
  obtain ⟨keyId, keySpelled, keyOk⟩ :=
    Wire.requireIdentifier_eq_ok_iff.mp publishable.keyId
  obtain ⟨artifactId, artifactSpelled, artifactOk⟩ :=
    Wire.requireIdentifier_eq_ok_iff.mp publishable.artifactId
  obtain ⟨filename, filenameSpelled, filenameOk⟩ :=
    Wire.requireFilename_eq_ok_iff.mp publishable.filename
  have sameProduct : request.productId =
      gateway.configuration.artifactProductId :=
    spelled.productId.value_unique (customer.product _ texts.productId)
  have sameChannel : request.channel = gateway.configuration.artifactChannel :=
    spelled.channel.value_unique (customer.channel _ texts.channelId)
  have ttl := (gateway.configuration.withinLimits
    gateway.limits).sessionTtlSeconds
  have size : gateway.configured.size.toInt = file.content.length := by
    rw [configured]
    exact file.toInt_size
  have valid : ManifestFields.Valid ⟨keyId, inputs.nonce, call.sessionId,
      call.now, call.now + gateway.configuration.sessionTtlSeconds, product,
      channel, artifactId, filename, gateway.configured.size,
      gateway.configured.sha256, List.replicate ed25519SignatureBytes 0⟩ := by
    refine ⟨keyOk, answers.nonce, answers.sessionId, answers.epoch.1, ?_,
      texts.product, texts.channel, artifactOk, filenameOk, ⟨?_, ?_⟩, ?_,
      List.length_replicate⟩
    · rw [Int64.lt_iff_toInt_lt]
      dsimp only
      omega
    · rw [Int64.le_iff_toInt_le]
      dsimp only
      rw [size]
      exact Int.natCast_nonneg _
    · dsimp only
      rw [size]
      exact small
    · dsimp only
      rw [configured]
      exact crypto.hashLength _
  have named : gateway.configured.id = gateway.configuration.artifactId ∧
      gateway.configured.filename =
        gateway.configuration.artifactFilename := by
    rw [configured]
    exact ⟨rfl, rfl⟩
  have data : ManifestData.Spells
      { keyId := gateway.configuration.keyId
        requestNonce := request.requestNonce
        sessionId := call.sessionId
        issuedAt := call.now
        expiresAt := call.now + gateway.configuration.sessionTtlSeconds
        productId := request.productId
        channel := request.channel
        artifactId := gateway.configured.id
        originalFilename := gateway.configured.filename
        artifactSize := gateway.configured.size
        artifactSha256 := gateway.configured.sha256
        signature := List.replicate ed25519SignatureBytes 0 }
      ⟨keyId, inputs.nonce, call.sessionId, call.now,
        call.now + gateway.configuration.sessionTtlSeconds, product, channel,
        artifactId, filename, gateway.configured.size,
        gateway.configured.sha256, List.replicate ed25519SignatureBytes 0⟩ :=
    ⟨keySpelled, spelled.requestNonce, rfl, rfl, rfl, spelled.productId,
      spelled.channel, named.1 ▸ artifactSpelled, named.2 ▸ filenameSpelled,
      rfl, rfl, rfl⟩
  refine ⟨request, _, ⟨_, ManifestData.check_eq_ok_iff.mpr ⟨_, valid, data⟩⟩,
    decoded, ⟨?_, ?_, answers.accepted request decoded, sameProduct,
      sameChannel, rfl⟩, valid, data, keySpelled, rfl, texts.productId,
    texts.channelId, rfl, rfl, named.1 ▸ artifactSpelled, rfl, rfl⟩
  · rw [spelled.timestamp]
    exact notEarly
  · rw [spelled.timestamp]
    exact notLate

/-- The gateway answers the client. -/
theorem exists_issued (publishable : Publishable gateway)
    (crypto : CorrectCryptography gateway sodium key.publicKey)
    (customer : Customer gateway q license key)
    (answers : Answers gateway q license inputs offset call) :
    ∃ fields, Issued gateway sodium q inputs key call fields := by
  obtain ⟨request, fields, manifest, decoded, prepared, valid, spelled, keyId,
    nonce, product, channel, issuedAt, expiresAt, artifactId, size, hash⟩ :=
    exists_unsigned publishable crypto customer answers
  obtain ⟨signature, signs, verifies, verifiesNative⟩ :=
    crypto.signs fields.unsignedLayout
  obtain ⟨issued, granted, data, -⟩ := Deployment.granted_of_prepared decoded
    prepared (SessionManifest.encodeUnsigned_eq_ok valid spelled) signs
  have sized := gateway.ed25519.signature_length _ _ signs
  refine ⟨{ fields with signature }, ⟨⟨valid.keyId, valid.requestNonce,
    valid.sessionId, valid.issuedAt, valid.expiresAt, valid.productId,
    valid.channel, valid.artifactId, valid.originalFilename,
    valid.artifactSize, valid.artifactSha256, sized⟩, ⟨issued, granted, ?_⟩,
    keyId, nonce, product, channel, issuedAt, expiresAt, artifactId, size,
    hash, verifies, verifiesNative⟩⟩
  rw [data]
  exact ⟨spelled.keyId, spelled.requestNonce, spelled.sessionId,
    spelled.issuedAt, spelled.expiresAt, spelled.productId, spelled.channel,
    spelled.artifactId, spelled.originalFilename, spelled.artifactSize,
    spelled.artifactSha256, rfl⟩

/-- The manifest passes the client's checks at every moment of the session,
read on a clock that is `offset` ahead. -/
theorem Issued.accepted {fields : ManifestFields}
    (issued : Issued gateway sodium q inputs key call fields)
    (customer : Customer gateway q license key)
    (answers : Answers gateway q license inputs offset call)
    {moment : Int} {checkTime : Int64}
    (clock : checkTime.toInt = moment + offset)
    (started : fields.issuedAt.toInt ≤ moment)
    (unexpired : moment ≤ fields.expiresAt.toInt) :
    Accepted sodium q (q.trustedKeys.getD []) { inputs with checkTime }
      fields.layout (Manifest.ofFields fields) key := by
  have bounds := abs_le.mp (answers.close.trans (min_le_right _ _))
  have zero : (0 : Int64).toInt = 0 := rfl
  have epoch : 0 ≤ checkTime := by
    have asked := Int64.le_iff_toInt_le.mp answers.epoch.2
    have clocks := answers.clocks
    rw [issued.issuedAt] at started
    rw [Int64.le_iff_toInt_le]
    omega
  obtain ⟨keyId, named, spelled⟩ := customer.keyId
  rw [spelled.bytes_unique issued.keyId] at named
  refine ⟨parseManifest_eq_some_iff.mpr ⟨fields, issued.valid, rfl, rfl⟩,
    issued.nonce.symm, issued.product, issued.channel,
    findKey_of_mem customer.admitted.keys customer.trusted named, ?_, ?_⟩
  · refine (outsideWindow_eq_false_iff ?_ epoch).mpr ?_
    · exact Int64.le_trans issued.valid.issuedAt
        (Int64.le_of_lt issued.valid.expiresAt)
    · dsimp only [Manifest.ofFields]
      omega
  · have signed : fields.layout.take fields.unsignedLayout.length =
        fields.unsignedLayout := by
      rw [ManifestFields.layout, List.take_left]
    dsimp only [Manifest.ofFields]
    rw [signed]
    exact issued.verifiesNative

private theorem authorizationHeader_eq (q : Request) (encoded : Bytes) :
    authorizationHeader (artifactExchange q encoded).headers =
      some (Deployment.authorizationStem ++
        (Base64.encodeUrl encoded).map UInt8.toUInt16) := by
  have split : ascii "Authorization: RymgaSession ".toList =
      ascii "Authorization: ".toList ++ ascii "RymgaSession ".toList := by
    decide
  have stem : (ascii "RymgaSession ".toList).map UInt8.toUInt16 =
      Deployment.authorizationStem := by
    decide
  rw [artifactExchange, split, List.append_assoc, authorizationHeader,
    if_pos (List.isPrefixOf_iff_prefix.mpr (List.prefix_append _ _)),
    List.drop_left, List.map_append, stem]

private theorem latin1_toUInt16 (bytes : Bytes) :
    Deployment.latin1 (bytes.map UInt8.toUInt16) = bytes := by
  rw [Deployment.latin1, List.map_map]
  refine List.map_id'' (fun byte => ?_) bytes
  have small := byte.toNat_lt
  simp only [Function.comp_apply, UInt8.toNat_toUInt16]
  rw [if_pos (by omega), UInt8.ofNat_toNat]

private theorem length_header {fields : ManifestFields}
    (valid : fields.Valid) :
    (Deployment.authorizationStem ++ (Base64.encodeUrl fields.layout).map
      UInt8.toUInt16).length ≤ 6000 := by
  have short := valid.length_layout_le
  have stem : Deployment.authorizationStem.length = 13 := rfl
  rw [List.length_append, List.length_map, Base64.length_encodeUrl, stem]
  omega

/-- The gateway serves the artifact for the header at every moment of the
session. -/
theorem Issued.downloaded {fields : ManifestFields}
    (issued : Issued gateway sodium q inputs key call fields) {now : Int64}
    (started : fields.issuedAt ≤ now) (unexpired : now ≤ fields.expiresAt) :
    ∃ response, gateway.downloadArtifact
        (authorizationHeader (artifactExchange q fields.layout).headers) now =
      .ok response ∧ response.status = 200 ∧
        response.body = .stream gateway.configured := by
  obtain ⟨manifest, -, spelled⟩ := issued.granted
  have decoded : gateway.decodeAuthorization (authorizationHeader
      (artifactExchange q fields.layout).headers) = .ok manifest := by
    rw [authorizationHeader_eq, Deployment.decodeAuthorization]
    refine Throwing.bind_eq_ok_iff.mpr ⟨(), demand_eq_ok_iff.mpr ⟨?_, ?_⟩, ?_⟩
    · exact List.isPrefixOf_iff_prefix.mpr (List.prefix_append _ _)
    · exact Nat.not_lt.mpr (length_header issued.valid)
    · rw [List.drop_left, latin1_toUInt16, Base64.decodeUrl_encodeUrl]
      exact protocolCall_eq_ok_iff.mpr (SessionManifest.decode_eq_ok_iff.mpr
        ⟨fields, issued.valid, spelled, rfl⟩)
  have authorized : gateway.authorizes manifest now = .ok true := by
    have keyId : manifest.keyId = gateway.configuration.keyId :=
      spelled.keyId.value_unique issued.keyId
    have verified : gateway.verify manifest = .ok true := by
      refine Throwing.bind_eq_ok_iff.mpr ⟨fields.unsignedLayout,
        protocolCall_eq_ok_iff.mpr (SessionManifest.encodeUnsigned_eq_ok
          issued.valid spelled), ?_⟩
      rw [Ed25519.verify, spelled.signature, issued.verifies]
      rfl
    rw [Deployment.authorizes, if_neg (not_not.mpr keyId), verified]
    have window : (decide (manifest.issuedAt > now) ||
        decide (manifest.expiresAt < now)) = false := by
      rw [spelled.issuedAt, spelled.expiresAt]
      simp [Int64.not_lt.mpr started, Int64.not_lt.mpr unexpired]
    change Except.ok (!_) = _
    rw [window]
    rfl
  have resolved : gateway.resolveForManifest manifest.artifactId
      manifest.artifactSize manifest.artifactSha256 =
        .ok gateway.configured := by
    rw [Deployment.resolveForManifest, if_neg]
    · rfl
    · simp [spelled.artifactId.value_unique issued.artifactId,
        spelled.artifactSize, issued.artifactSize, spelled.artifactSha256,
        issued.artifactSha256]
  refine ⟨noStore ⟨200, [("Content-Type", "application/java-archive"),
      ("Content-Length", toString gateway.configured.size)],
      .stream gateway.configured⟩,
    Deployment.tryCatch_eq_ok_iff.mpr (Or.inl ?_), rfl, rfl⟩
  exact Throwing.bind_eq_ok_iff.mpr ⟨manifest, decoded,
    Throwing.bind_eq_ok_iff.mpr ⟨true, authorized,
      Throwing.bind_eq_ok_iff.mpr ⟨gateway.configured, resolved, rfl⟩⟩⟩

/-- A gateway time at which the session is valid. -/
def InSession (m : Manifest) (moment : Int) : Prop :=
  m.issuedAt.toInt ≤ moment ∧ moment ≤ m.expiresAt.toInt

/-- The client checks the manifest and presents it during the session, the
network carries both answers, and every path and address that the client
builds fits its buffer. -/
structure Relayed (gateway : Deployment) (q : Request) (license : Bytes)
    (inputs : Inputs) (offset : Int) (call : SessionCall) (encoded : Bytes)
    (m : Manifest) (pid : Nat) : Prop where
  checked : ∃ moment, InSession m moment ∧
    inputs.checkTime.toInt = moment + offset
  session : Carries (gateway.create call)
    (inputs.session (inputs.asked q license))
  artifact : ∃ now : Int64, InSession m now.toInt ∧
    Carries (gateway.downloadArtifact
        (authorizationHeader (artifactExchange q encoded).headers) now)
      (inputs.artifact (artifactExchange q encoded))
  url : (inputs.asked q license).url.length < pathMax
  paths : PathsFit q m pid

private theorem Issued.carried {fields : ManifestFields}
    (issued : Issued gateway sodium q inputs key call fields)
    {reply : Reply} (carries : Carries (gateway.create call) reply) :
    reply.transferred = true ∧ reply.status = 200 ∧
      reply.chunks.flatten = fields.layout := by
  obtain ⟨manifest, ⟨response, encoded, created, ok, body, written⟩,
    spelled⟩ := issued.granted
  have bytes : encoded = fields.layout := Except.ok.inj (written.symm.trans
    (SessionManifest.encode_eq_ok issued.valid spelled))
  obtain ⟨transferred, status, chunks⟩ := carries response encoded created
    (by rw [body]; rfl)
  rw [ok] at status
  exact ⟨transferred, status, chunks.trans bytes⟩

private theorem Issued.delivers {fields : ManifestFields}
    (issued : Issued gateway sodium q inputs key call fields)
    (sameHash : sodium.sha256 = gateway.sha256) {response : Response}
    {answer : Throwing Response} (answered : answer = .ok response)
    (ok : response.status = 200)
    (streamed : response.body = .stream gateway.configured) {reply : Reply}
    (carries : Carries answer reply) :
    DeliversPromised sodium (Manifest.ofFields fields) reply := by
  obtain ⟨file, configured, -, -⟩ := gateway.configured_eq
  have written : content response.body = some file.content := by
    rw [streamed, content, Artifact.writeTo, configured]
    exact file.readAll_size
  obtain ⟨transferred, status, chunks⟩ := carries response _ answered written
  have size : (file.content.length : Int) = fields.artifactSize.toInt := by
    rw [issued.artifactSize, configured]
    exact file.toInt_size.symm
  have hash : sodium.sha256 file.content = fields.artifactSha256 := by
    rw [issued.artifactSha256, configured, sameHash]
  rw [ok] at status
  rw [DeliversPromised, status, chunks]
  exact ⟨transferred, by decide, by decide, size, hash⟩

private theorem Issued.served {fields : ManifestFields}
    (issued : Issued gateway sodium q inputs key call fields)
    (sameHash : sodium.sha256 = gateway.sha256)
    (customer : Customer gateway q license key)
    (answers : Answers gateway q license inputs offset call) {pid : Nat}
    (relayed : Relayed gateway q license inputs offset call fields.layout
      (Manifest.ofFields fields) pid) :
    Served sodium q (q.trustedKeys.getD []) license inputs pid := by
  obtain ⟨product, channel, loader, installation, texts⟩ :=
    exists_texts customer.admitted.texts
  have valid := requestFields_valid texts answers.nonce answers.epoch.2
    customer.license
  obtain ⟨transferred, status, response⟩ := issued.carried relayed.session
  obtain ⟨moment, ⟨started, unexpired⟩, clock⟩ := relayed.checked
  obtain ⟨now, ⟨early, late⟩, carries⟩ := relayed.artifact
  obtain ⟨answer, answered, ok, streamed⟩ := issued.downloaded
    (Int64.le_iff_toInt_le.mpr early) (Int64.le_iff_toInt_le.mpr late)
  have body : (q.body inputs.nonce license inputs.requestTime).length ≤
      8192 := by
    rw [Request.body, texts.productId, texts.channelId, texts.loaderVersion,
      texts.installationId]
    exact valid.length_layout_le.trans (by decide)
  have bytes : inputs.response q license = fields.layout := response
  refine ⟨answers.epoch.2, body, relayed.url, transferred, ?_, ?_, _, key, ?_,
    relayed.paths, ?_⟩
  · rw [status]
    decide
  · rw [bytes]
    exact issued.valid.length_layout_le.trans (by decide)
  · rw [bytes]
    exact issued.accepted customer answers clock started unexpired
  · rw [bytes]
    exact issued.delivers sameHash answered ok streamed carries

/-- An honest gateway grants the session that an honest client asks for, the
client accepts it, the header the client derives from it is answered with the
artifact, and an acquisition on a machine without failures succeeds. -/
theorem acquire_interoperates (gateway : Deployment) (sodium : Sodium)
    (q : Request) (license : Bytes) (key : PublicKey) (inputs : Inputs)
    (offset : Int) (call : SessionCall) (publishable : Publishable gateway)
    (crypto : CorrectCryptography gateway sodium key.publicKey)
    (customer : Customer gateway q license key)
    (answers : Answers gateway q license inputs offset call) :
    ∃ response encoded m header, gateway.create call = .ok response ∧
      response.status = 200 ∧ response.body = .bytes encoded ∧
      m.issuedAt = call.now ∧
      m.expiresAt =
        call.now + gateway.configuration.sessionTtlSeconds ∧
      (∀ moment (checkTime : Int64), InSession m moment →
        checkTime.toInt = moment + offset →
          Accepted sodium q (q.trustedKeys.getD [])
            { inputs with checkTime } encoded m key) ∧
      authorizationHeader (artifactExchange q encoded).headers =
        some header ∧
      header = Deployment.authorizationStem ++
        (Base64.encodeUrl encoded).map UInt8.toUInt16 ∧
      header.length ≤ 6000 ∧
      (∀ now : Int64, InSession m now.toInt → ∃ answer,
        gateway.downloadArtifact (some header) now = .ok answer ∧
          answer.status = 200 ∧ answer.body = .stream gateway.configured) ∧
      ∀ self before outcome after,
        Relayed gateway q license inputs offset call encoded m
          (before.pidOf self) →
        Program.Runs (alone self callsSucceed)
          (acquire sodium (some q) (some license) inputs) before outcome
          after →
        outcome.1 = .ok := by
  obtain ⟨fields, issued⟩ := exists_issued publishable crypto customer answers
  obtain ⟨manifest, ⟨response, encoded, created, ok, body, written⟩,
    spelled⟩ := issued.granted
  obtain rfl : encoded = fields.layout := Except.ok.inj (written.symm.trans
    (SessionManifest.encode_eq_ok issued.valid spelled))
  have header := authorizationHeader_eq q fields.layout
  refine ⟨response, fields.layout, .ofFields fields, _, created, ok, body,
    issued.issuedAt, issued.expiresAt, ?_, header, rfl,
    length_header issued.valid, ?_, ?_⟩
  · rintro moment checkTime ⟨started, unexpired⟩ clock
    exact issued.accepted customer answers clock started unexpired
  · rintro now ⟨early, late⟩
    rw [← header]
    exact issued.downloaded (Int64.le_iff_toInt_le.mpr early)
      (Int64.le_iff_toInt_le.mpr late)
  · intro self before outcome after relayed run
    refine acquire_succeeds (fun _ _ _ permitted => permitted)
      customer.admitted ?_ run
    intro keys someKeys
    have served := issued.served crypto.sameHash customer answers relayed
    rw [someKeys] at served
    exact served

/-- The small gateway is asked by the small request, whose clock is 50 seconds
ahead. -/
def honestCall : SessionCall where
  encodedRequest := smallRequest.body smallInputs.nonce [0x6C] 150
  now := 100
  sessionId := List.replicate 32 9
  licenseValidator _ := .ok true

private theorem created_small :
    ((Deployment.smallGateway.create honestCall).toOption.bind
      fun response => content response.body) = some smallManifest.layout := by
  decide +kernel

private theorem pathsFit_small {m : Manifest}
    (short : m.filename.length = 5) : PathsFit smallRequest m 0 := by
  have directory : smallRequest.runtimeDirectory.length = 2 := rfl
  have owner : ownerMarker.length = 12 := rfl
  have part : artifactPart.length = 14 := rfl
  have room : pathMax = 4096 := rfl
  refine ⟨fun name temp => ⟨?_, fun created epoch => length_ownerText
    (by decide) epoch (.inl temp)⟩, fun name temp => ?_, fun _ => ?_⟩
  · have length := length_tempName temp
    simp only [MarkerFits, slashed, List.length_append, List.length_cons]
    omega
  · have length := length_tempName temp
    simp only [slashed, List.length_append, List.length_cons]
    omega
  · have url : (smallRequest.endpoint.getD [] ++
        ascii "/v1/artifact".toList).length < pathMax := by
      decide
    exact url

private theorem customer_small : Customer Deployment.smallGateway smallRequest
    [0x6C] ⟨some [0x6B], List.replicate 32 0⟩ := by
  refine ⟨⟨by decide, by decide, by decide⟩, ?_, ?_,
    textField_some_iff.mp (by decide), by decide, [0x6B], rfl, ['k'], rfl,
    by decide⟩
  · rintro _ ⟨⟩
    exact ⟨['p'], rfl, by decide⟩
  · rintro _ ⟨⟩
    exact ⟨['c'], rfl, by decide⟩

private theorem answers_small : Answers Deployment.smallGateway smallRequest
    [0x6C] smallInputs 50 honestCall :=
  ⟨rfl, rfl, rfl, fun _ _ => rfl, by decide, by decide, by decide, by decide⟩

private theorem carries_small {response : Response} {encoded : Bytes}
    (created : Deployment.smallGateway.create honestCall = .ok response)
    (ok : response.status = 200) (body : response.body = .bytes encoded) :
    encoded = smallManifest.layout ∧
      Carries (Deployment.smallGateway.create honestCall)
        (smallInputs.session (smallInputs.asked smallRequest [0x6C])) := by
  have bytes := created_small
  rw [created, Except.toOption, Option.bind_some, body] at bytes
  have same := Option.some.inj bytes
  refine ⟨same, fun other others answered written => ?_⟩
  rw [created] at answered
  cases answered
  rw [body] at written
  cases written
  refine ⟨rfl, ?_, ?_⟩
  · rw [ok]
    rfl
  · rw [same]
    decide +kernel

theorem acquire_interoperates_small : ∃ outcome after,
    Program.Runs (alone 0 callsSucceed)
      (acquire smallSodium (some smallRequest) (some [0x6C]) smallInputs)
      World.initial outcome after ∧ outcome.1 = .ok := by
  obtain ⟨response, encoded, m, header, created, ok, body, issuedAt, expiresAt,
    accepts, presented, -, -, downloads, succeeds⟩ :=
    acquire_interoperates Deployment.smallGateway smallSodium smallRequest
      [0x6C] ⟨some [0x6B], List.replicate 32 0⟩ smallInputs 50 honestCall
      ⟨by decide, by decide, by decide⟩
      ⟨fun _ => ⟨_, rfl, rfl, rfl⟩, rfl, fun _ => rfl⟩
      customer_small answers_small
  obtain ⟨after, followed⟩ := follow_small
  have run : Program.Runs (alone 0 callsSucceed) _ _ _ _ :=
    Program.runs_of_follow (alone_of_machine (callsSucceed_obliging 0))
      followed
  obtain ⟨bytes, session⟩ := carries_small created ok body
  have during : InSession m 100 := by
    rw [InSession, issuedAt, expiresAt]
    decide
  have parsed := (accepts 100 150 during (by decide)).parsed
  rw [bytes] at parsed
  have short : m.filename.length = 5 := by
    have length : (parseManifest smallManifest.layout).map
        (·.filename.length) = some 5 := by
      decide +kernel
    rw [parsed] at length
    exact Option.some.inj length
  obtain ⟨answer, answered, granted, streamed⟩ := downloads 100 during
  refine ⟨_, after, run, succeeds 0 World.initial _ after ⟨⟨100, during,
    by decide⟩, session, ⟨100, during, ?_⟩, by decide, pathsFit_small short⟩
    run⟩
  rw [presented]
  intro other others again written
  rw [answered] at again
  cases again
  rw [streamed] at written
  have whole : content (.stream Deployment.smallGateway.configured) =
      some [1, 2, 3] := by
    decide
  rw [whole] at written
  cases written
  rw [granted]
  exact ⟨rfl, rfl, rfl⟩

end RymgaLoader.Interop
