import RymgaLoader.Native.RequestEncoding
import RymgaLoader.Protocol.SessionManifest
import RymgaLoader.Protocol.SessionRequest

/-!
# The native and the Java codecs agree

Both sides were shown exact for the same layouts, so what one accepts the
other accepts, and the fields they report denote the same texts.
-/

namespace RymgaLoader.Interop

open Protocol

/-- The fields that both manifest types expose denote the same values, and
`signedPart` is what the Java side re-encodes for signature checks. -/
structure SameManifest {jdk : CaseMapping} (native : Native.Manifest)
    (manifest : SessionManifest jdk) (signedPart : Bytes) : Prop where
  keyId : Spells manifest.keyId native.keyId
  nonce : manifest.requestNonce = native.nonce
  issuedAt : manifest.issuedAt = native.issuedAt
  expiresAt : manifest.expiresAt = native.expiresAt
  product : Spells manifest.productId native.product
  channel : Spells manifest.channel native.channel
  artifactId : Spells manifest.artifactId native.artifactId
  filename : Spells manifest.originalFilename native.filename
  artifactSize : manifest.artifactSize = native.artifactSize
  hash : manifest.artifactSha256 = native.hash
  signature : manifest.signature = native.signature
  signed : manifest.unsignedBytes = .ok signedPart

theorem sameManifest_ofFields {jdk : CaseMapping}
    {manifest : SessionManifest jdk} {fields : ManifestFields}
    (valid : fields.Valid) (spelled : manifest.toManifestData.Spells fields) :
    SameManifest (Native.Manifest.ofFields fields) manifest
      fields.unsignedLayout where
  keyId := spelled.keyId
  nonce := spelled.requestNonce
  issuedAt := spelled.issuedAt
  expiresAt := spelled.expiresAt
  product := spelled.productId
  channel := spelled.channel
  artifactId := spelled.artifactId
  filename := spelled.originalFilename
  artifactSize := spelled.artifactSize
  hash := spelled.artifactSha256
  signature := spelled.signature
  signed := SessionManifest.encodeUnsigned_eq_ok valid spelled

/-- `parse_manifest` and `SessionManifest.decode` accept the same byte
strings, report the same fields and agree on the signed bytes. -/
theorem manifestDecoders_agree (jdk : CaseMapping) (bytes : Bytes) :
    ((Native.parseManifest bytes).isSome ↔
        ∃ manifest, SessionManifest.decode jdk bytes = .ok manifest) ∧
      ∀ native manifest, Native.parseManifest bytes = some native →
        SessionManifest.decode jdk bytes = .ok manifest →
          native.signedLength ≤ bytes.length ∧
            SameManifest native manifest (bytes.take native.signedLength) := by
  constructor
  · constructor
    · intro accepted
      obtain ⟨native, parsed⟩ := Option.isSome_iff_exists.mp accepted
      obtain ⟨fields, valid, rfl, -⟩ :=
        Native.parseManifest_eq_some_iff.mp parsed
      obtain ⟨manifest, spelled⟩ := SessionManifest.exists_of_valid jdk valid
      exact ⟨manifest, SessionManifest.decode_eq_ok_iff.mpr
        ⟨fields, valid, spelled, rfl⟩⟩
    · rintro ⟨manifest, decoded⟩
      obtain ⟨fields, valid, -, rfl⟩ :=
        SessionManifest.decode_eq_ok_iff.mp decoded
      rw [Native.parseManifest_eq_some_iff.mpr ⟨fields, valid, rfl, rfl⟩]
      rfl
  · intro native manifest parsed decoded
    obtain ⟨fields, valid, spelled, rfl⟩ :=
      SessionManifest.decode_eq_ok_iff.mp decoded
    rw [Native.parseManifest_eq_some_iff.mpr ⟨fields, valid, rfl, rfl⟩] at parsed
    cases parsed
    have signedPart : fields.layout.take
        (Native.Manifest.ofFields fields).signedLength =
        fields.unsignedLayout := List.take_left
    rw [signedPart]
    refine ⟨?_, sameManifest_ofFields valid spelled⟩
    rw [ManifestFields.layout, List.length_append]
    exact Nat.le_add_right _ _

/-- The Java request a native client means. -/
structure SameRequest (q : Native.Request) (nonce license : Bytes)
    (now : Int64) (request : SessionRequest) : Prop where
  timestamp : request.timestamp = now
  requestNonce : request.requestNonce = nonce
  productId : ∀ bytes, q.productId = some bytes →
    Spells request.productId bytes
  channel : ∀ bytes, q.channel = some bytes → Spells request.channel bytes
  loaderVersion : ∀ bytes, q.loaderVersion = some bytes →
    Spells request.loaderVersion bytes
  installationId : ∀ bytes, q.installationId = some bytes →
    Spells request.installationId bytes
  license : Spells request.license license

/-- The field list of an admitted request is valid. -/
theorem requestFields_valid {q : Native.Request}
    {product channel loader installation nonce license : Bytes} {now : Int64}
    (texts : q.Texts product channel loader installation)
    (sized : nonce.length = nonceBytes) (epoch : 0 ≤ now)
    (text : IsText 4096 license) :
    RequestFields.Valid ⟨now, nonce, product, channel, loader, installation,
      license⟩ :=
  ⟨epoch, sized, texts.product, texts.channel, texts.loader,
    texts.installation, text⟩

theorem sameRequest_of_spells {q : Native.Request}
    {product channel loader installation nonce license : Bytes} {now : Int64}
    {request : SessionRequest}
    (texts : q.Texts product channel loader installation)
    (spelled : request.toRequestData.Spells ⟨now, nonce, product, channel,
      loader, installation, license⟩) :
    SameRequest q nonce license now request where
  timestamp := spelled.timestamp
  requestNonce := spelled.requestNonce
  productId bytes same := by
    cases texts.productId.symm.trans same
    exact spelled.productId
  channel bytes same := by
    cases texts.channelId.symm.trans same
    exact spelled.channel
  loaderVersion bytes same := by
    cases texts.loaderVersion.symm.trans same
    exact spelled.loaderVersion
  installationId bytes same := by
    cases texts.installationId.symm.trans same
    exact spelled.installationId
  license := spelled.license

/-- With memory available, `encode_request` succeeds in every run, within its
buffer, and writes what the Java codec writes for the same request. -/
theorem requestCodecs_agree (self : Native.Process) (world : Native.World)
    (idle : world.Idle self) (q : Native.Request) (nonce license : Bytes)
    (now : Int64) (admitted : Native.requestTextsOk q = true)
    (sized : nonce.length = nonceBytes) (epoch : 0 ≤ now)
    (text : IsText 4096 license) :
    ∃ request encoded, SameRequest q nonce license now request ∧
      request.encode = .ok encoded ∧
      SessionRequest.decode encoded = .ok request ∧
      (∃ outcome after, Program.Runs (Native.alone self Native.allocating)
        ((Native.encodeRequest q nonce license now).run (.empty 8192)) world
        outcome after) ∧
      ∀ outcome after, Program.Runs (Native.alone self Native.allocating)
        ((Native.encodeRequest q nonce license now).run (.empty 8192)) world
        outcome after → outcome.1 = true ∧ outcome.2.data = encoded ∧
          outcome.2.data.length ≤ 8192 := by
  obtain ⟨product, channel, loader, installation, texts⟩ :=
    Native.exists_texts admitted
  have valid := requestFields_valid texts sized epoch text
  obtain ⟨request, spelled⟩ := SessionRequest.exists_of_valid valid
  have layoutLength := valid.length_layout_le
  refine ⟨request, _, sameRequest_of_spells texts spelled,
    SessionRequest.encode_eq_ok valid spelled,
    SessionRequest.decode_eq_ok_iff.mpr ⟨_, valid, spelled, rfl⟩,
    Native.exists_runs_allocating self _ idle, ?_⟩
  have bounded : (Native.Buffer.empty 8192).Bounded := ⟨by simp
    [Native.Buffer.empty], by decide⟩
  have fills : Native.Fills self Native.allocating
      (Native.encodeRequest q nonce license now) _ :=
    Native.encodeRequest_fills texts epoch text.1 text.length_le
  intro outcome after run
  obtain ⟨-, -, within, data, succeeds⟩ :=
    Program.wp_iff_runs.mp (fills _ bounded world) outcome after run
  have allocates : Native.Allocates Native.allocating :=
    fun _ _ answered => answered
  have done : outcome.1 = true := by
    apply succeeds allocates
    simp only [Native.Buffer.empty, List.length_nil]
    omega
  refine ⟨done, ?_, within⟩
  rw [data done]
  rfl

theorem requestCodecs_agree_smallRequest :
    ∃ request encoded,
      SameRequest Native.smallRequest (List.replicate 32 7) [0x6C] 5
          request ∧
        request.encode = .ok encoded ∧
        SessionRequest.decode encoded = .ok request := by
  have license : IsText 4096 [0x6C] :=
    Native.textField_some_iff.mp (by decide)
  obtain ⟨request, encoded, same, written, read, -⟩ :=
    requestCodecs_agree 0 Native.World.initial rfl
      Native.smallRequest (List.replicate 32 7) [0x6C] 5 (by decide) rfl (by decide) license
  exact ⟨request, encoded, same, written, read⟩

end RymgaLoader.Interop
