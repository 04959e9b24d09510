import RymgaLoader.Gateway.Resource

/-!
# Authorization over whole runs

A run of the gateway is any sequence of calls to its two endpoints.  Under an
unforgeable signature every artifact it serves goes back to a session that it
granted earlier in the run.
-/

namespace RymgaLoader.Gateway

open Protocol

/-- One call of `createSession` with what it draws from its surroundings. -/
structure SessionCall where
  encodedRequest : Bytes
  now : Int64
  sessionId : Bytes
  licenseValidator : LicenseValidator

inductive Event
  | createSession (call : SessionCall)
  | downloadArtifact (authorization : Option JavaString) (now : Int64)

namespace Deployment

variable (gateway : Deployment)

def create (call : SessionCall) : Throwing Response :=
  gateway.createSession call.licenseValidator call.now call.sessionId
    call.encodedRequest

/-- The byte strings the private key signs during an event. -/
def signedDuring : Event → List Bytes
  | .downloadArtifact _ _ => []
  | .createSession call =>
      match SessionRequest.decode call.encodedRequest with
      | .error _ => []
      | .ok request =>
          match gateway.prepare call.licenseValidator call.now call.sessionId
              request with
          | .error _ => []
          | .ok manifest =>
              match manifest.unsignedBytes with
              | .error _ => []
              | .ok message =>
                  if (gateway.ed25519.signature message).isSome then [message]
                  else []

/-- Everything signed since startup, the self-check of the key included. -/
def signed (events : List Event) : List Bytes :=
  selfCheck :: events.flatMap gateway.signedDuring

/-- No signature presented in the run verifies for a byte string that was not
signed before it was presented. -/
def Unforgeable (events : List Event) : Prop :=
  ∀ earlier authorization now later manifest message,
    events = earlier ++ .downloadArtifact authorization now :: later →
    gateway.decodeAuthorization authorization = .ok manifest →
    manifest.unsignedBytes = .ok message →
    gateway.ed25519.verification message manifest.signature = some true →
      message ∈ gateway.signed earlier

/-- What a served download has checked. -/
structure Served (authorization : Option JavaString) (now : Int64)
    (response : Response) (manifest : SessionManifest gateway.jdk)
    (message : Bytes) : Prop where
  decoded : gateway.decodeAuthorization authorization = .ok manifest
  unsigned : manifest.unsignedBytes = .ok message
  verified : gateway.ed25519.verification message manifest.signature =
    some true
  issued : manifest.issuedAt ≤ now
  unexpired : now ≤ manifest.expiresAt
  artifactId : gateway.configured.id = manifest.artifactId
  artifactSize : gateway.configured.size = manifest.artifactSize
  artifactSha256 : gateway.configured.sha256 = manifest.artifactSha256
  streamed : response.body = .stream gateway.configured

variable {gateway}

private theorem authorizes_eq_ok_true {manifest : SessionManifest gateway.jdk}
    {now : Int64} (granted : gateway.authorizes manifest now = .ok true) :
    manifest.keyId = gateway.configuration.keyId ∧ ∃ message,
      manifest.unsignedBytes = .ok message ∧
      gateway.ed25519.verification message manifest.signature = some true ∧
      manifest.issuedAt ≤ now ∧ now ≤ manifest.expiresAt := by
  unfold authorizes at granted
  split at granted
  · cases granted
  rename_i sameKey
  obtain ⟨valid, verified, window⟩ := Throwing.bind_eq_ok_iff.mp granted
  obtain ⟨message, unsigned, checked⟩ := Throwing.bind_eq_ok_iff.mp verified
  rw [protocolCall_eq_ok_iff] at unsigned
  unfold Ed25519.verify at checked
  split at checked
  · rename_i outcome answered
    cases checked
    cases valid with
    | false => cases window
    | true =>
        simp only [if_true] at window
        have fresh := Except.ok.inj window
        simp only [Bool.not_eq_true', Bool.or_eq_false_iff,
          decide_eq_false_iff_not, gt_iff_lt, Int64.not_lt] at fresh
        exact ⟨not_not.mp sameKey, message, unsigned, answered, fresh⟩
  · cases checked

theorem tryCatch_eq_ok_iff {α : Type} {body : Throwing α}
    {handler : GatewayException → Throwing α} {value : α} :
    tryCatch body handler = .ok value ↔ body = .ok value ∨
      ∃ exception, body = .error exception ∧
        handler exception = .ok value := by
  cases body with
  | ok result => simp [tryCatch, tryCatchThe, MonadExceptOf.tryCatch,
      Except.tryCatch]
  | error exception => simp [tryCatch, tryCatchThe, MonadExceptOf.tryCatch,
      Except.tryCatch]

private theorem downloadFailure_status {exception : GatewayException}
    {response : Response}
    (answered : downloadFailure exception = .ok response) :
    response.status ≠ 200 := by
  cases exception <;> cases answered <;> decide

theorem exists_served {authorization : Option JavaString} {now : Int64}
    {response : Response}
    (answered : gateway.downloadArtifact authorization now = .ok response)
    (ok : response.status = 200) :
    ∃ manifest message,
      gateway.Served authorization now response manifest message := by
  rcases tryCatch_eq_ok_iff.mp answered with served | ⟨exception, -, handled⟩
  · obtain ⟨manifest, decoded, rest⟩ := Throwing.bind_eq_ok_iff.mp served
    obtain ⟨granted, authorized, rest⟩ := Throwing.bind_eq_ok_iff.mp rest
    cases granted with
    | false =>
        cases rest
        exact absurd ok (by decide)
    | true =>
        obtain ⟨-, message, unsigned, verified, issued, unexpired⟩ :=
          authorizes_eq_ok_true authorized
        obtain ⟨artifact, resolved, built⟩ := Throwing.bind_eq_ok_iff.mp rest
        unfold resolveForManifest at resolved
        split at resolved
        · cases resolved
        · rename_i same
          simp only [not_or, not_not] at same
          cases resolved
          cases built
          exact ⟨manifest, message, decoded, unsigned, verified, issued,
            unexpired, same.1, same.2.1, same.2.2, rfl⟩
  · exact absurd ok (downloadFailure_status handled)

/-- Replacing the signature of a manifest keeps what is signed. -/
theorem exists_resigned {jdk : CaseMapping} (manifest : SessionManifest jdk)
    {signature : Bytes} (sized : signature.length = ed25519SignatureBytes) :
    ∃ signed, SessionManifest.make jdk
        { manifest.toManifestData with signature } = .ok signed ∧
      signed.toManifestData = { manifest.toManifestData with signature } ∧
      signed.unsignedBytes = manifest.unsignedBytes := by
  obtain ⟨fields, valid, spelled⟩ := manifest.exists_fields
  have resigned : { fields with signature }.Valid :=
    ⟨valid.keyId, valid.requestNonce, valid.sessionId, valid.issuedAt,
      valid.expiresAt, valid.productId, valid.channel, valid.artifactId,
      valid.originalFilename, valid.artifactSize, valid.artifactSha256, sized⟩
  have respelled : ManifestData.Spells
      { manifest.toManifestData with signature } { fields with signature } :=
    ⟨spelled.keyId, spelled.requestNonce, spelled.sessionId, spelled.issuedAt,
      spelled.expiresAt, spelled.productId, spelled.channel,
      spelled.artifactId, spelled.originalFilename, spelled.artifactSize,
      spelled.artifactSha256, rfl⟩
  refine ⟨⟨_, ManifestData.check_eq_ok_iff.mpr ⟨_, resigned, respelled⟩⟩,
    SessionManifest.make_eq_ok_iff.mpr rfl, rfl, ?_⟩
  rw [SessionManifest.unsignedBytes, SessionManifest.unsignedBytes,
    SessionManifest.encodeUnsigned_eq_ok valid spelled,
    SessionManifest.encodeUnsigned_eq_ok resigned respelled]
  rfl

/-- What `prepare` has checked, and the manifest it builds. -/
structure Prepared (gateway : Deployment) (call : SessionCall)
    (request : SessionRequest) (manifest : SessionManifest gateway.jdk) :
    Prop where
  notEarly : call.now - gateway.configuration.clockSkewSeconds ≤
    request.timestamp
  notLate : request.timestamp ≤
    call.now + gateway.configuration.clockSkewSeconds
  licensed : call.licenseValidator (.ofRequest request) = .ok true
  product : request.productId = gateway.configuration.artifactProductId
  channel : request.channel = gateway.configuration.artifactChannel
  data : manifest.toManifestData =
    { keyId := gateway.configuration.keyId
      requestNonce := request.requestNonce
      sessionId := call.sessionId
      issuedAt := call.now
      expiresAt := call.now + gateway.configuration.sessionTtlSeconds
      productId := request.productId
      channel := request.channel
      artifactId := gateway.configured.id
      originalFilename := gateway.configured.filename
      artifactSize := gateway.configured.size
      artifactSha256 := gateway.configured.sha256
      signature := List.replicate ed25519SignatureBytes 0 }

theorem prepare_eq_ok_iff {call : SessionCall} {request : SessionRequest}
    {manifest : SessionManifest gateway.jdk} :
    gateway.prepare call.licenseValidator call.now call.sessionId request =
      .ok manifest ↔ gateway.Prepared call request manifest := by
  simp only [prepare, Throwing.bind_eq_ok_iff, demand_eq_ok_iff, exists_const,
    protocolCall_eq_ok_iff, SessionManifest.make_eq_ok_iff, not_or,
    Int64.not_lt, gt_iff_lt, resolve]
  constructor
  · rintro ⟨⟨notEarly, notLate⟩, accepted, licensed, rfl, artifact, resolved,
      data⟩
    split at resolved
    · cases resolved
    · rename_i same
      simp only [not_or, not_not] at same
      cases resolved
      exact ⟨notEarly, notLate, licensed, same.1.symm, same.2.symm, data⟩
  · rintro ⟨notEarly, notLate, licensed, product, channel, data⟩
    refine ⟨⟨notEarly, notLate⟩, true, licensed, rfl, gateway.configured, ?_,
      data⟩
    rw [if_neg]
    · rfl
    · simp [product, channel]

/-- A sum that did not wrap around. -/
theorem toInt_add_of_nonneg {left right : Int64} (low : 0 ≤ left.toInt)
    (small : 0 ≤ right.toInt) (sum : 0 ≤ (left + right).toInt) :
    (left + right).toInt = left.toInt + right.toInt := by
  have leftBound := left.toInt_lt
  have rightBound := right.toInt_lt
  rw [Int64.toInt_add, Int.bmod_def] at sum ⊢
  split at sum <;> split <;> omega

private theorem Prepared.nonneg {call : SessionCall} {request : SessionRequest}
    {manifest : SessionManifest gateway.jdk}
    (prepared : gateway.Prepared call request manifest) :
    0 ≤ call.now.toInt ∧ 0 ≤ request.timestamp.toInt ∧ call.now.toInt <
      (call.now + gateway.configuration.sessionTtlSeconds).toInt := by
  obtain ⟨fields, valid, spelled⟩ := manifest.exists_fields
  obtain ⟨asked, askedValid, askedSpelled⟩ := request.exists_fields
  have issued := valid.issuedAt
  have expires := valid.expiresAt
  have timestamp := askedValid.timestamp
  rw [← spelled.issuedAt, prepared.data] at issued expires
  rw [← spelled.expiresAt, prepared.data] at expires
  rw [← askedSpelled.timestamp] at timestamp
  have zero : (0 : Int64).toInt = 0 := rfl
  rw [Int64.le_iff_toInt_le, zero] at issued timestamp
  exact ⟨issued, timestamp, Int64.lt_iff_toInt_lt.mp expires⟩

theorem Prepared.timely {call : SessionCall} {request : SessionRequest}
    {manifest : SessionManifest gateway.jdk}
    (prepared : gateway.Prepared call request manifest) :
    |request.timestamp.toInt - call.now.toInt| ≤
      gateway.configuration.clockSkewSeconds.toInt := by
  obtain ⟨issued, timestamp, -⟩ := prepared.nonneg
  obtain ⟨low, high⟩ := (gateway.configuration.withinLimits
    gateway.limits).clockSkewSeconds
  have notEarly := Int64.le_iff_toInt_le.mp prepared.notEarly
  have notLate := Int64.le_iff_toInt_le.mp prepared.notLate
  rw [toInt_add_of_nonneg issued low (by omega)] at notLate
  have bound := call.now.toInt_lt
  have difference : (call.now - gateway.configuration.clockSkewSeconds).toInt =
      call.now.toInt - gateway.configuration.clockSkewSeconds.toInt := by
    rw [Int64.toInt_sub]
    apply Int.bmod_eq_of_le <;> omega
  rw [difference] at notEarly
  rw [abs_le]
  omega

theorem Prepared.expiresAt {call : SessionCall} {request : SessionRequest}
    {manifest : SessionManifest gateway.jdk}
    (prepared : gateway.Prepared call request manifest) :
    manifest.expiresAt.toInt = manifest.issuedAt.toInt +
      gateway.configuration.sessionTtlSeconds.toInt := by
  obtain ⟨issued, -, later⟩ := prepared.nonneg
  have ttl := (gateway.configuration.withinLimits
    gateway.limits).sessionTtlSeconds
  rw [prepared.data]
  exact toInt_add_of_nonneg issued (by omega) (by omega)

/-- The call answered with the manifest it issued. -/
def Granted (gateway : Deployment) (call : SessionCall)
    (issued : SessionManifest gateway.jdk) : Prop :=
  ∃ response encoded, gateway.create call = .ok response ∧
    response.status = 200 ∧ response.body = .bytes encoded ∧
    issued.encode = .ok encoded

theorem granted_of_prepared {call : SessionCall} {request : SessionRequest}
    {manifest : SessionManifest gateway.jdk} {message signature : Bytes}
    (decoded : SessionRequest.decode call.encodedRequest = .ok request)
    (prepared : gateway.Prepared call request manifest)
    (unsigned : manifest.unsignedBytes = .ok message)
    (signs : gateway.ed25519.signature message = some signature) :
    ∃ issued, gateway.Granted call issued ∧
      issued.toManifestData = { manifest.toManifestData with signature } ∧
      issued.unsignedBytes = .ok message := by
  obtain ⟨issued, made, data, same⟩ := exists_resigned manifest
    (gateway.ed25519.signature_length message signature signs)
  obtain ⟨encoded, written, -⟩ := issued.exists_encode_decode
  refine ⟨issued, ⟨sessionResponse encoded, encoded,
    tryCatch_eq_ok_iff.mpr (Or.inl ?_), rfl, rfl, written⟩, data,
    same.trans unsigned⟩
  have signed : gateway.sign manifest = .ok issued := by
    simp only [sign, Throwing.bind_eq_ok_iff, protocolCall_eq_ok_iff,
      Ed25519.sign]
    exact ⟨message, unsigned, signature, by rw [signs]; rfl, made⟩
  simp only [grant, issue, Throwing.bind_eq_ok_iff, protocolCall_eq_ok_iff]
  exact ⟨request, decoded, issued, ⟨manifest, prepare_eq_ok_iff.mpr prepared,
    signed⟩, encoded, written, rfl⟩

theorem exists_prepared {call : SessionCall} {message : Bytes}
    (member : message ∈ gateway.signedDuring (.createSession call)) :
    ∃ request manifest signature,
      SessionRequest.decode call.encodedRequest = .ok request ∧
      gateway.Prepared call request manifest ∧
      manifest.unsignedBytes = .ok message ∧
      gateway.ed25519.signature message = some signature := by
  unfold signedDuring at member
  dsimp only at member
  split at member
  · cases member
  rename_i request decoded
  split at member
  · cases member
  rename_i manifest prepared
  split at member
  · cases member
  rename_i signedMessage unsigned
  split at member
  · rename_i signs
    rw [List.mem_singleton] at member
    subst member
    obtain ⟨signature, signs⟩ := Option.isSome_iff_exists.mp signs
    exact ⟨request, manifest, signature, decoded,
      prepare_eq_ok_iff.mp prepared, unsigned, signs⟩
  · cases member

/-- The self-check of the key pair is not a manifest. -/
theorem unsignedBytes_ne_selfCheck {jdk : CaseMapping}
    (manifest : SessionManifest jdk) :
    manifest.unsignedBytes ≠ .ok selfCheck := by
  obtain ⟨fields, valid, spelled⟩ := manifest.exists_fields
  rw [SessionManifest.unsignedBytes,
    SessionManifest.encodeUnsigned_eq_ok valid spelled]
  intro same
  have bytes := congrArg (List.take 4) (Except.ok.inj same)
  have magic : fields.unsignedLayout.take 4 = manifestMagic := by
    have length : manifestMagic.length = 4 := rfl
    simp only [ManifestFields.unsignedLayout, List.append_assoc]
    rw [← length, List.take_left]
  rw [magic] at bytes
  exact absurd bytes (by decide)

/-- The session call that an artifact download goes back to. -/
structure Authorized (gateway : Deployment) (call : SessionCall)
    (manifest : SessionManifest gateway.jdk) : Prop where
  intro ::
  granted : ∃ request issued,
    SessionRequest.decode call.encodedRequest = .ok request ∧
    gateway.Granted call issued ∧
    { manifest.toManifestData with signature := issued.signature } =
      issued.toManifestData ∧
    call.licenseValidator (.ofRequest request) = .ok true ∧
    request.requestNonce = manifest.requestNonce ∧
    request.productId = gateway.configuration.artifactProductId ∧
    request.channel = gateway.configuration.artifactChannel ∧
    |request.timestamp.toInt - manifest.issuedAt.toInt| ≤
      gateway.configuration.clockSkewSeconds.toInt

/-- In every run, whenever a download is answered with the artifact, an
earlier call granted the session it presents, for an accepted license and the
configured product, and the session has not expired. -/
theorem downloadArtifact_authorized (gateway : Deployment)
    (events : List Event) (unforgeable : gateway.Unforgeable events)
    (earlier later : List Event) (authorization : Option JavaString)
    (now : Int64) (response : Response)
    (manifest : SessionManifest gateway.jdk)
    (run : events = earlier ++ .downloadArtifact authorization now :: later)
    (answered : gateway.downloadArtifact authorization now = .ok response)
    (ok : response.status = 200)
    (decoded : gateway.decodeAuthorization authorization = .ok manifest) :
    (∃ call, .createSession call ∈ earlier ∧
      gateway.Authorized call manifest) ∧
    manifest.issuedAt.toInt ≤ now.toInt ∧
    now.toInt ≤ manifest.issuedAt.toInt +
      gateway.configuration.sessionTtlSeconds.toInt ∧
    ∃ artifact, response.body = .stream artifact ∧
      artifact.id = manifest.artifactId ∧
      artifact.size = manifest.artifactSize ∧
      artifact.sha256 = manifest.artifactSha256 := by
  obtain ⟨presented, message, served⟩ := exists_served answered ok
  have same : presented = manifest :=
    Except.ok.inj (served.decoded.symm.trans decoded)
  subst same
  have member := unforgeable earlier authorization now later presented message
    run decoded served.unsigned served.verified
  rcases List.mem_cons.mp member with rfl | member
  · exact absurd served.unsigned (unsignedBytes_ne_selfCheck presented)
  obtain ⟨event, listed, member⟩ := List.mem_flatMap.mp member
  cases event with
  | downloadArtifact _ _ => cases member
  | createSession call =>
      obtain ⟨request, manifest, signature, asked, prepared, unsigned,
        signs⟩ := exists_prepared member
      obtain ⟨issued, granted, data, written⟩ :=
        granted_of_prepared asked prepared unsigned signs
      have fields : { presented.toManifestData with
          signature := issued.signature } = issued.toManifestData :=
        SessionManifest.unsignedBytes_injective
          (served.unsigned.trans written.symm)
      have resigned := fields.trans data
      have issuedAt : presented.issuedAt = manifest.issuedAt := by
        have field := congrArg ManifestData.issuedAt resigned
        exact field
      have expiresAt : presented.expiresAt = manifest.expiresAt := by
        have field := congrArg ManifestData.expiresAt resigned
        exact field
      have nonce : presented.requestNonce = manifest.requestNonce := by
        have field := congrArg ManifestData.requestNonce resigned
        exact field
      have moment : manifest.issuedAt = call.now := by rw [prepared.data]
      refine ⟨⟨call, listed, request, issued, asked, granted, fields,
        prepared.licensed, ?_, prepared.product, prepared.channel, ?_⟩,
        Int64.le_iff_toInt_le.mp served.issued, ?_, gateway.configured,
        served.streamed, served.artifactId, served.artifactSize,
        served.artifactSha256⟩
      · rw [nonce, prepared.data]
      · rw [issuedAt, moment]
        exact prepared.timely
      · have unexpired := Int64.le_iff_toInt_le.mp served.unexpired
        rw [expiresAt, prepared.expiresAt] at unexpired
        rw [issuedAt]
        exact unexpired

/-- A signature scheme that signs everything alike. -/
def smallEd25519 : Ed25519 where
  signature _ := some (List.replicate 64 2)
  verification _ signature := some (signature = List.replicate 64 2)
  signature_length message bytes signs := by
    cases signs
    rfl

def smallConfiguration : GatewayConfiguration where
  keyId := java ['k']
  artifactProductId := java ['p']
  artifactChannel := java ['c']
  artifactId := java ['a']
  artifactFilename := java ['a', '.', 'j', 'a', 'r']
  maxArtifactBytes := 100
  sessionTtlSeconds := 100
  clockSkewSeconds := 120

def smallChannel : FileChannel := ⟨[1, 2, 3], fun _ => 0, by decide⟩

/-- A gateway that serves three bytes. -/
def smallGateway : Deployment where
  jdk := asciiCaseMapping
  ed25519 := smallEd25519
  sha256 _ := List.replicate 32 1
  configuration := smallConfiguration
  located := .ok smallChannel
  configured := ⟨java ['a'], java ['a', '.', 'j', 'a', 'r'], 3,
    List.replicate 32 1, smallChannel⟩
  limits := by decide
  keys := by decide
  loaded := rfl

def smallCall : SessionCall where
  encodedRequest := RequestFields.layout ⟨100, List.replicate 32 7, [0x70],
    [0x63], [0x31], [0x69], [0x6C]⟩
  now := 100
  sessionId := List.replicate 32 9
  licenseValidator _ := .ok true

def smallLayout : ManifestFields where
  keyId := [0x6B]
  requestNonce := List.replicate 32 7
  sessionId := List.replicate 32 9
  issuedAt := 100
  expiresAt := 200
  productId := [0x70]
  channel := [0x63]
  artifactId := [0x61]
  originalFilename := ascii ['a', '.', 'j', 'a', 'r']
  artifactSize := 3
  artifactSha256 := List.replicate 32 1
  signature := List.replicate 64 2

def smallHeader : JavaString :=
  authorizationStem ++
    (Base64.encodeUrl smallLayout.layout).map UInt8.toUInt16

private theorem smallHeader_unsigned :
    (smallGateway.decodeAuthorization (some smallHeader) >>= fun manifest =>
      protocolCall manifest.unsignedBytes) =
        .ok smallLayout.unsignedLayout := by
  decide +kernel

private theorem smallRun_unforgeable : smallGateway.Unforgeable
    [.createSession smallCall, .downloadArtifact (some smallHeader) 150] := by
  intro earlier authorization now later manifest message run decoded unsigned _
  have first : earlier = [.createSession smallCall] ∧
      authorization = some smallHeader := by
    cases earlier with
    | nil => cases run
    | cons event rest =>
        cases rest with
        | nil =>
            cases run
            exact ⟨rfl, rfl⟩
        | cons next rest => simp at run
  obtain ⟨rfl, rfl⟩ := first
  have whole : (smallGateway.decodeAuthorization (some smallHeader) >>=
      fun manifest => protocolCall manifest.unsignedBytes) = .ok message :=
    Throwing.bind_eq_ok_iff.mpr ⟨manifest, decoded,
      protocolCall_eq_ok_iff.mpr unsigned⟩
  have signed : smallGateway.signed [.createSession smallCall] =
      [selfCheck, smallLayout.unsignedLayout] := by
    decide +kernel
  rw [smallHeader_unsigned] at whole
  rw [signed, ← Except.ok.inj whole]
  simp

theorem downloadArtifact_authorized_small : ∃ response manifest call,
    smallGateway.downloadArtifact (some smallHeader) 150 = .ok response ∧
      response.status = 200 ∧
      smallGateway.decodeAuthorization (some smallHeader) = .ok manifest ∧
      .createSession call ∈ [Event.createSession smallCall] ∧
      smallGateway.Authorized call manifest := by
  have answer : (smallGateway.downloadArtifact (some smallHeader)
      150).toOption.map (·.status) = some 200 := by
    decide +kernel
  obtain ⟨response, answered, ok⟩ := Option.map_eq_some_iff.mp answer
  have answered : smallGateway.downloadArtifact (some smallHeader) 150 =
      .ok response := by
    cases outcome : smallGateway.downloadArtifact (some smallHeader) 150 with
    | ok value =>
        rw [outcome] at answered
        cases answered
        rfl
    | error exception =>
        rw [outcome] at answered
        cases answered
  obtain ⟨manifest, decoded, -⟩ :=
    Throwing.bind_eq_ok_iff.mp smallHeader_unsigned
  obtain ⟨⟨call, listed, authorized⟩, -⟩ := downloadArtifact_authorized
    smallGateway _ smallRun_unforgeable [.createSession smallCall] []
    (some smallHeader) 150 response manifest rfl answered ok decoded
  exact ⟨response, manifest, call, answered, ok, decoded, listed, authorized⟩

end Deployment

end RymgaLoader.Gateway
