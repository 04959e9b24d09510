import RymgaLoader.Protocol.WireStreams

/-!
# Session manifests of the Java protocol library

`SessionManifest` with its codec.  A manifest carries the proof that its
constructor accepted the fields, so every value of the type is one the
program can hold.
-/

namespace RymgaLoader.Protocol

open ExactReader

/-- The arguments of the `SessionManifest` constructor. -/
@[ext] structure ManifestData where
  keyId : JavaString
  requestNonce : Bytes
  sessionId : Bytes
  issuedAt : Int64
  expiresAt : Int64
  productId : JavaString
  channel : JavaString
  artifactId : JavaString
  originalFilename : JavaString
  artifactSize : Int64
  artifactSha256 : Bytes
  signature : Bytes
  deriving DecidableEq

def ManifestData.check (jdk : CaseMapping) (data : ManifestData) :
    Checked Unit := do
  Wire.requireIdentifier "keyId" data.keyId 64
  Wire.requireBytes "requestNonce" data.requestNonce nonceBytes
  Wire.requireBytes "sessionId" data.sessionId sessionIdBytes
  Wire.requireTimestamp "issuedAt" data.issuedAt
  Wire.requireTimestamp "expiresAt" data.expiresAt
  Protocol.check (¬data.expiresAt ≤ data.issuedAt)
    "expiresAt must be after issuedAt"
  Wire.requireIdentifier "productId" data.productId 128
  Wire.requireIdentifier "channel" data.channel 64
  Wire.requireIdentifier "artifactId" data.artifactId 128
  Wire.requireFilename jdk data.originalFilename
  Protocol.check
    (¬(data.artifactSize < 0 ∨ data.artifactSize.toInt > maxArtifactBytes))
    "artifactSize is outside the protocol limit"
  Wire.requireBytes "artifactSha256" data.artifactSha256 sha256Bytes
  Wire.requireBytes "signature" data.signature ed25519SignatureBytes

structure SessionManifest (jdk : CaseMapping) extends ManifestData where
  checked : toManifestData.check jdk = .ok ()

namespace SessionManifest

variable {jdk : CaseMapping}

/-- The private constructor. -/
def make (jdk : CaseMapping) (data : ManifestData) :
    Checked (SessionManifest jdk) :=
  match checked : data.check jdk with
  | .ok () => .ok ⟨data, checked⟩
  | .error exception => .error exception

def encodeUnsigned (manifest : SessionManifest jdk) : Checked Bytes :=
  Wire.Writer.finish (do
    Wire.Writer.magic manifestMagic
    Wire.Writer.u16 version
    Wire.Writer.string manifest.keyId
    Wire.Writer.bytes manifest.requestNonce
    Wire.Writer.bytes manifest.sessionId
    Wire.Writer.i64 manifest.issuedAt
    Wire.Writer.i64 manifest.expiresAt
    Wire.Writer.string manifest.productId
    Wire.Writer.string manifest.channel
    Wire.Writer.string manifest.artifactId
    Wire.Writer.string manifest.originalFilename
    Wire.Writer.i64 manifest.artifactSize
    Wire.Writer.bytes manifest.artifactSha256)
    (maxSessionManifestBytes - ed25519SignatureBytes)

def unsignedBytes (manifest : SessionManifest jdk) : Checked Bytes :=
  manifest.encodeUnsigned

def encode (manifest : SessionManifest jdk) : Checked Bytes := do
  let body ← manifest.encodeUnsigned
  Wire.Writer.finish (do
    Wire.Writer.bytes body
    Wire.Writer.bytes manifest.signature)
    maxSessionManifestBytes

def read (jdk : CaseMapping) : Wire.Reader (SessionManifest jdk) := do
  Wire.Reader.magic manifestMagic
  let version ← Wire.Reader.u16
  StateT.lift (Wire.requireVersion version)
  let keyId ← Wire.Reader.string "keyId" 64
  let requestNonce ← Wire.Reader.bytes nonceBytes
  let sessionId ← Wire.Reader.bytes sessionIdBytes
  let issuedAt ← Wire.Reader.i64
  let expiresAt ← Wire.Reader.i64
  let productId ← Wire.Reader.string "productId" 128
  let channel ← Wire.Reader.string "channel" 64
  let artifactId ← Wire.Reader.string "artifactId" 128
  let originalFilename ← Wire.Reader.string "originalFilename" 255
  let artifactSize ← Wire.Reader.i64
  let artifactSha256 ← Wire.Reader.bytes sha256Bytes
  let signature ← Wire.Reader.bytes ed25519SignatureBytes
  StateT.lift (make jdk { keyId, requestNonce, sessionId, issuedAt, expiresAt,
                          productId, channel, artifactId, originalFilename,
                          artifactSize, artifactSha256, signature })

def decode (jdk : CaseMapping) (encoded : Bytes) :
    Checked (SessionManifest jdk) :=
  Wire.Reader.run (read jdk) encoded maxSessionManifestBytes

end SessionManifest

/-- The constructor arguments denote the field list. -/
structure ManifestData.Spells (data : ManifestData) (fields : ManifestFields) :
    Prop where
  keyId : Protocol.Spells data.keyId fields.keyId
  requestNonce : data.requestNonce = fields.requestNonce
  sessionId : data.sessionId = fields.sessionId
  issuedAt : data.issuedAt = fields.issuedAt
  expiresAt : data.expiresAt = fields.expiresAt
  productId : Protocol.Spells data.productId fields.productId
  channel : Protocol.Spells data.channel fields.channel
  artifactId : Protocol.Spells data.artifactId fields.artifactId
  originalFilename :
    Protocol.Spells data.originalFilename fields.originalFilename
  artifactSize : data.artifactSize = fields.artifactSize
  artifactSha256 : data.artifactSha256 = fields.artifactSha256
  signature : data.signature = fields.signature

/-- The layout of a field list, with the fields of what it spells. -/
theorem ManifestData.Spells.layout_eq {data : ManifestData}
    {fields : ManifestFields} (spelled : data.Spells fields) :
    fields.layout = manifestMagic ++ (u16Layout version ++
      (stringLayout fields.keyId ++ (data.requestNonce ++ (data.sessionId ++
      (i64Layout data.issuedAt ++ (i64Layout data.expiresAt ++
      (stringLayout fields.productId ++ (stringLayout fields.channel ++
      (stringLayout fields.artifactId ++
      (stringLayout fields.originalFilename ++
      (i64Layout data.artifactSize ++
      (data.artifactSha256 ++ data.signature)))))))))))) := by
  rw [ManifestFields.layout, ManifestFields.unsignedLayout,
    spelled.requestNonce, spelled.sessionId, spelled.issuedAt,
    spelled.expiresAt, spelled.artifactSize, spelled.artifactSha256,
    spelled.signature]
  simp only [List.append_assoc]

/-- What a valid field list spells has fields of the sizes of the wire. -/
theorem ManifestData.Spells.sizes {data : ManifestData}
    {fields : ManifestFields} (spelled : data.Spells fields)
    (valid : fields.Valid) :
    data.requestNonce.length = nonceBytes ∧
      data.sessionId.length = sessionIdBytes ∧
      data.artifactSha256.length = sha256Bytes ∧
      data.signature.length = ed25519SignatureBytes := by
  rw [spelled.requestNonce, spelled.sessionId, spelled.artifactSha256,
    spelled.signature]
  exact ⟨valid.requestNonce, valid.sessionId, valid.artifactSha256,
    valid.signature⟩

theorem ManifestData.Spells.data_unique {left right : ManifestData}
    {fields : ManifestFields} (first : left.Spells fields)
    (second : right.Spells fields) : left = right := by
  ext1
  · exact first.keyId.value_unique second.keyId
  · rw [first.requestNonce, second.requestNonce]
  · rw [first.sessionId, second.sessionId]
  · rw [first.issuedAt, second.issuedAt]
  · rw [first.expiresAt, second.expiresAt]
  · exact first.productId.value_unique second.productId
  · exact first.channel.value_unique second.channel
  · exact first.artifactId.value_unique second.artifactId
  · exact first.originalFilename.value_unique second.originalFilename
  · rw [first.artifactSize, second.artifactSize]
  · rw [first.artifactSha256, second.artifactSha256]
  · rw [first.signature, second.signature]

theorem ManifestData.Spells.fields_unique {data : ManifestData}
    {left right : ManifestFields} (first : data.Spells left)
    (second : data.Spells right) : left = right := by
  ext1
  · exact first.keyId.bytes_unique second.keyId
  · rw [← first.requestNonce, second.requestNonce]
  · rw [← first.sessionId, second.sessionId]
  · rw [← first.issuedAt, second.issuedAt]
  · rw [← first.expiresAt, second.expiresAt]
  · exact first.productId.bytes_unique second.productId
  · exact first.channel.bytes_unique second.channel
  · exact first.artifactId.bytes_unique second.artifactId
  · exact first.originalFilename.bytes_unique second.originalFilename
  · rw [← first.artifactSize, second.artifactSize]
  · rw [← first.artifactSha256, second.artifactSha256]
  · rw [← first.signature, second.signature]

theorem ManifestData.check_eq_ok_iff {jdk : CaseMapping} {data : ManifestData}
    {done : Unit} :
    data.check jdk = .ok done ↔
      ∃ fields : ManifestFields, fields.Valid ∧ data.Spells fields := by
  simp only [ManifestData.check, Checked.bind_eq_ok_iff,
    Wire.requireIdentifier_eq_ok_iff, Wire.requireFilename_eq_ok_iff,
    Wire.requireBytes_eq_ok_iff, Wire.requireTimestamp_eq_ok_iff,
    Protocol.check_eq_ok_iff, exists_const]
  constructor
  · rintro ⟨⟨keyId, keyIdSpelled, keyIdOk⟩, nonceSized, sessionSized, issuedOk,
      -, ordered, ⟨productId, productSpelled, productOk⟩,
      ⟨channel, channelSpelled, channelOk⟩,
      ⟨artifactId, artifactSpelled, artifactOk⟩,
      ⟨filename, filenameSpelled, filenameOk⟩, sizeOk, hashSized,
      signatureSized⟩
    refine ⟨⟨keyId, data.requestNonce, data.sessionId, data.issuedAt,
      data.expiresAt, productId, channel, artifactId, filename,
      data.artifactSize, data.artifactSha256, data.signature⟩, ?_, ?_⟩
    · rw [not_or, Int64.not_lt, not_lt] at sizeOk
      exact ⟨keyIdOk, nonceSized, sessionSized, issuedOk,
        Int64.not_le.mp ordered, productOk, channelOk, artifactOk, filenameOk,
        sizeOk, hashSized, signatureSized⟩
    · exact ⟨keyIdSpelled, rfl, rfl, rfl, rfl, productSpelled, channelSpelled,
        artifactSpelled, filenameSpelled, rfl, rfl, rfl⟩
  · rintro ⟨fields, valid, spelled⟩
    have expiresOk : 0 ≤ fields.expiresAt :=
      Int64.le_trans valid.issuedAt (Int64.le_of_lt valid.expiresAt)
    rw [spelled.requestNonce, spelled.sessionId, spelled.issuedAt,
      spelled.expiresAt, spelled.artifactSize, spelled.artifactSha256,
      spelled.signature, not_or, Int64.not_lt, not_lt, Int64.not_le]
    exact ⟨⟨_, spelled.keyId, valid.keyId⟩, valid.requestNonce,
      valid.sessionId, valid.issuedAt, expiresOk, valid.expiresAt,
      ⟨_, spelled.productId, valid.productId⟩,
      ⟨_, spelled.channel, valid.channel⟩,
      ⟨_, spelled.artifactId, valid.artifactId⟩,
      ⟨_, spelled.originalFilename, valid.originalFilename⟩,
      valid.artifactSize, valid.artifactSha256, valid.signature⟩

namespace SessionManifest

variable {jdk : CaseMapping}

theorem make_eq_ok_iff {data : ManifestData} {manifest : SessionManifest jdk} :
    make jdk data = .ok manifest ↔ manifest.toManifestData = data := by
  unfold make
  constructor
  · intro made
    split at made
    · cases made
      rfl
    · cases made
  · rintro rfl
    split
    · rfl
    · rename_i exception failed
      rw [manifest.checked] at failed
      cases failed

@[ext] theorem ext {left right : SessionManifest jdk}
    (same : left.toManifestData = right.toManifestData) : left = right := by
  cases left
  cases right
  cases same
  rfl

theorem exists_fields (manifest : SessionManifest jdk) :
    ∃ fields : ManifestFields, fields.Valid ∧
      manifest.toManifestData.Spells fields :=
  ManifestData.check_eq_ok_iff.mp manifest.checked

theorem encodeUnsigned_eq_ok {manifest : SessionManifest jdk}
    {fields : ManifestFields} (valid : fields.Valid)
    (spelled : manifest.toManifestData.Spells fields) :
    manifest.encodeUnsigned = .ok fields.unsignedLayout := by
  have keyId := valid.keyId.length_le
  have product := valid.productId.length_le
  have channel := valid.channel.length_le
  have artifact := valid.artifactId.length_le
  have filename := valid.originalFilename.1.length_le
  apply Wire.Writes.finish_eq_ok
  · rw [ManifestFields.unsignedLayout, ← spelled.requestNonce,
      ← spelled.sessionId, ← spelled.issuedAt, ← spelled.expiresAt,
      ← spelled.artifactSize, ← spelled.artifactSha256]
    simp only [List.append_assoc]
    exact (Wire.Writes.bytes manifestMagic).seq <|
      (Wire.Writes.u16 (by decide)).seq <|
      (Wire.Writes.string spelled.keyId (by omega)).seq <|
      (Wire.Writes.bytes _).seq <| (Wire.Writes.bytes _).seq <|
      (Wire.Writes.i64 _).seq <| (Wire.Writes.i64 _).seq <|
      (Wire.Writes.string spelled.productId (by omega)).seq <|
      (Wire.Writes.string spelled.channel (by omega)).seq <|
      (Wire.Writes.string spelled.artifactId (by omega)).seq <|
      (Wire.Writes.string spelled.originalFilename (by omega)).seq <|
      (Wire.Writes.i64 _).seq (Wire.Writes.bytes _)
  · exact valid.length_unsignedLayout_le.trans (by decide)

theorem encode_eq_ok {manifest : SessionManifest jdk}
    {fields : ManifestFields} (valid : fields.Valid)
    (spelled : manifest.toManifestData.Spells fields) :
    manifest.encode = .ok fields.layout := by
  have whole : fields.layout = fields.unsignedLayout ++ manifest.signature := by
    rw [spelled.signature]
    rfl
  refine Checked.bind_eq_ok_iff.mpr
    ⟨_, encodeUnsigned_eq_ok valid spelled, ?_⟩
  apply Wire.Writes.finish_eq_ok
  · rw [whole]
    exact (Wire.Writes.bytes _).seq (Wire.Writes.bytes _)
  · exact valid.length_layout_le.trans (by decide)

private theorem read_exact :
    Exact (read jdk) (fun manifest bytes => ∃ fields : ManifestFields,
      fields.Valid ∧ manifest.toManifestData.Spells fields ∧
        bytes = fields.layout) := by
  refine (Exact.bind (Wire.Reader.magic_exact manifestMagic) fun _ =>
    Exact.bind Wire.Reader.u16_exact fun version =>
    Exact.bind (Exact.lift (Wire.requireVersion version)) fun _ =>
    Exact.bind (Wire.Reader.string_exact (by decide)) fun keyId =>
    Exact.bind (Wire.Reader.bytes_exact nonceBytes) fun requestNonce =>
    Exact.bind (Wire.Reader.bytes_exact sessionIdBytes) fun sessionId =>
    Exact.bind Wire.Reader.i64_exact fun issuedAt =>
    Exact.bind Wire.Reader.i64_exact fun expiresAt =>
    Exact.bind (Wire.Reader.string_exact (by decide)) fun productId =>
    Exact.bind (Wire.Reader.string_exact (by decide)) fun channel =>
    Exact.bind (Wire.Reader.string_exact (by decide)) fun artifactId =>
    Exact.bind (Wire.Reader.string_exact (by decide)) fun originalFilename =>
    Exact.bind Wire.Reader.i64_exact fun artifactSize =>
    Exact.bind (Wire.Reader.bytes_exact sha256Bytes) fun artifactSha256 =>
    Exact.bind (Wire.Reader.bytes_exact ed25519SignatureBytes)
      fun signature => Exact.lift (make jdk _)).congr ?_
  intro manifest bytes
  constructor
  · rintro ⟨_, _, _, rfl, rest, rfl⟩
    obtain ⟨version, _, _, ⟨-, rfl⟩, rest, rfl⟩ := rest
    obtain ⟨_, _, _, ⟨supported, rfl⟩, rest, rfl⟩ := rest
    obtain ⟨keyId, _, _, ⟨keyIdText, keyIdSpelled, -, -, rfl⟩, rest, rfl⟩ :=
      rest
    obtain ⟨_, nonce, _, ⟨rfl, -⟩, rest, rfl⟩ := rest
    obtain ⟨_, sessionId, _, ⟨rfl, -⟩, rest, rfl⟩ := rest
    obtain ⟨issuedAt, _, _, rfl, rest, rfl⟩ := rest
    obtain ⟨expiresAt, _, _, rfl, rest, rfl⟩ := rest
    obtain ⟨product, _, _, ⟨productText, productSpelled, -, -, rfl⟩, rest,
      rfl⟩ := rest
    obtain ⟨channel, _, _, ⟨channelText, channelSpelled, -, -, rfl⟩, rest,
      rfl⟩ := rest
    obtain ⟨artifactId, _, _, ⟨artifactText, artifactSpelled, -, -, rfl⟩, rest,
      rfl⟩ := rest
    obtain ⟨filename, _, _, ⟨filenameText, filenameSpelled, -, -, rfl⟩, rest,
      rfl⟩ := rest
    obtain ⟨size, _, _, rfl, rest, rfl⟩ := rest
    obtain ⟨_, hash, _, ⟨rfl, -⟩, rest, rfl⟩ := rest
    obtain ⟨_, signature, _, ⟨rfl, -⟩, rest, rfl⟩ := rest
    obtain ⟨made, rfl⟩ := rest
    have data := make_eq_ok_iff.mp made
    have one : version = Protocol.version := check_eq_ok_iff.mp supported
    subst one
    obtain ⟨fields, valid, spelled⟩ := manifest.exists_fields
    refine ⟨fields, valid, spelled, ?_⟩
    rw [data] at spelled
    rw [keyIdSpelled.bytes_unique spelled.keyId,
      productSpelled.bytes_unique spelled.productId,
      channelSpelled.bytes_unique spelled.channel,
      artifactSpelled.bytes_unique spelled.artifactId,
      filenameSpelled.bytes_unique spelled.originalFilename,
      spelled.layout_eq, List.append_nil]
  · rintro ⟨fields, valid, spelled, rfl⟩
    obtain ⟨sized, sessionSized, hashSized, signatureSized⟩ :=
      spelled.sizes valid
    rw [spelled.layout_eq]
    refine ⟨(), manifestMagic, _, rfl, ?_, rfl⟩
    refine ⟨Protocol.version, _, _, ⟨by decide, rfl⟩, ?_, rfl⟩
    refine ⟨(), [], _, ⟨check_eq_ok_iff.mpr rfl, rfl⟩, ?_, rfl⟩
    refine ⟨manifest.keyId, _, _, ⟨fields.keyId, spelled.keyId, valid.keyId.1,
      valid.keyId.length_le, rfl⟩, ?_, rfl⟩
    refine ⟨manifest.requestNonce, _, _, ⟨rfl, sized⟩, ?_, rfl⟩
    refine ⟨manifest.sessionId, _, _, ⟨rfl, sessionSized⟩, ?_, rfl⟩
    refine ⟨manifest.issuedAt, _, _, rfl, ?_, rfl⟩
    refine ⟨manifest.expiresAt, _, _, rfl, ?_, rfl⟩
    refine ⟨manifest.productId, _, _, ⟨fields.productId, spelled.productId,
      valid.productId.1, valid.productId.length_le, rfl⟩, ?_, rfl⟩
    refine ⟨manifest.channel, _, _, ⟨fields.channel, spelled.channel,
      valid.channel.1, valid.channel.length_le, rfl⟩, ?_, rfl⟩
    refine ⟨manifest.artifactId, _, _, ⟨fields.artifactId, spelled.artifactId,
      valid.artifactId.1, valid.artifactId.length_le, rfl⟩, ?_, rfl⟩
    refine ⟨manifest.originalFilename, _, _, ⟨fields.originalFilename,
      spelled.originalFilename, valid.originalFilename.1.1,
      valid.originalFilename.1.length_le, rfl⟩, ?_, rfl⟩
    refine ⟨manifest.artifactSize, _, _, rfl, ?_, rfl⟩
    refine ⟨manifest.artifactSha256, _, _, ⟨rfl, hashSized⟩, ?_, rfl⟩
    refine ⟨manifest.signature, manifest.signature, [],
      ⟨rfl, signatureSized⟩, ?_, (List.append_nil _).symm⟩
    exact ⟨make_eq_ok_iff.mpr rfl, rfl⟩

/-- `SessionManifest.decode` returns a manifest exactly on the layout of the
field list the manifest denotes. -/
theorem decode_eq_ok_iff {encoded : Bytes} {manifest : SessionManifest jdk} :
    decode jdk encoded = .ok manifest ↔
      ∃ fields : ManifestFields, fields.Valid ∧
        manifest.toManifestData.Spells fields ∧ encoded = fields.layout := by
  rw [decode, Wire.Reader.run_eq_ok_iff read_exact, and_iff_right_iff_imp]
  rintro ⟨fields, valid, -, rfl⟩
  exact valid.length_layout_le.trans (by decide)

theorem decode_eq_of_isPrefix {short long : Bytes}
    {left right : SessionManifest jdk} (first : decode jdk short = .ok left)
    (second : decode jdk long = .ok right) (within : short <+: long) :
    short = long := by
  obtain ⟨fields, shortPlaced⟩ := decode_eq_ok_iff.mp first
  obtain ⟨others, longPlaced⟩ := decode_eq_ok_iff.mp second
  exact (read_exact.eq_of_isPrefix ⟨fields, shortPlaced⟩ ⟨others, longPlaced⟩
    within).2

theorem exists_of_valid (jdk : CaseMapping) {fields : ManifestFields}
    (valid : fields.Valid) :
    ∃ manifest : SessionManifest jdk,
      manifest.toManifestData.Spells fields := by
  obtain ⟨keyId, keyIdSpelled⟩ := valid.keyId.isText.exists_spells
  obtain ⟨productId, productSpelled⟩ := valid.productId.isText.exists_spells
  obtain ⟨channel, channelSpelled⟩ := valid.channel.isText.exists_spells
  obtain ⟨artifactId, artifactSpelled⟩ := valid.artifactId.isText.exists_spells
  obtain ⟨filename, filenameSpelled⟩ :=
    valid.originalFilename.1.exists_spells
  have spelled : ManifestData.Spells ⟨keyId, fields.requestNonce,
      fields.sessionId, fields.issuedAt, fields.expiresAt, productId, channel,
      artifactId, filename, fields.artifactSize, fields.artifactSha256,
      fields.signature⟩ fields :=
    ⟨keyIdSpelled, rfl, rfl, rfl, rfl, productSpelled, channelSpelled,
      artifactSpelled, filenameSpelled, rfl, rfl, rfl⟩
  exact ⟨⟨_, ManifestData.check_eq_ok_iff.mpr ⟨fields, valid, spelled⟩⟩,
    spelled⟩

theorem exists_encode_decode (manifest : SessionManifest jdk) :
    ∃ encoded, manifest.encode = .ok encoded ∧
      decode jdk encoded = .ok manifest := by
  obtain ⟨fields, valid, spelled⟩ := manifest.exists_fields
  exact ⟨fields.layout, encode_eq_ok valid spelled,
    decode_eq_ok_iff.mpr ⟨fields, valid, spelled, rfl⟩⟩

theorem encode_of_decode {encoded : Bytes} {manifest : SessionManifest jdk}
    (decoded : decode jdk encoded = .ok manifest) :
    manifest.encode = .ok encoded := by
  obtain ⟨fields, valid, spelled, rfl⟩ := decode_eq_ok_iff.mp decoded
  exact encode_eq_ok valid spelled

theorem encode_injective {left right : SessionManifest jdk}
    (same : left.encode = right.encode) : left = right := by
  obtain ⟨encoded, written, read⟩ := left.exists_encode_decode
  obtain ⟨others, otherWritten, otherRead⟩ := right.exists_encode_decode
  rw [written, otherWritten] at same
  cases same
  rw [read] at otherRead
  exact Except.ok.inj otherRead

theorem unsignedLayout_injective {fields others : ManifestFields}
    (jdk : CaseMapping) (valid : fields.Valid) (otherValid : others.Valid)
    (same : fields.unsignedLayout = others.unsignedLayout) :
    { fields with signature := others.signature } = others := by
  have resigned : { fields with signature := others.signature }.Valid :=
    ⟨valid.keyId, valid.requestNonce, valid.sessionId, valid.issuedAt,
      valid.expiresAt, valid.productId, valid.channel, valid.artifactId,
      valid.originalFilename, valid.artifactSize, valid.artifactSha256,
      otherValid.signature⟩
  obtain ⟨left, spelled⟩ := exists_of_valid jdk resigned
  obtain ⟨right, otherSpelled⟩ := exists_of_valid jdk otherValid
  have layouts : { fields with signature := others.signature }.layout =
      others.layout :=
    congrArg (· ++ others.signature) same
  have equal : left = right := by
    apply encode_injective
    rw [encode_eq_ok resigned spelled, encode_eq_ok otherValid otherSpelled,
      layouts]
  rw [equal] at spelled
  exact spelled.fields_unique otherSpelled

/-- Manifests with the same signed bytes differ in their signature only. -/
theorem unsignedBytes_injective {left right : SessionManifest jdk}
    (same : left.unsignedBytes = right.unsignedBytes) :
    { left.toManifestData with signature := right.signature } =
      right.toManifestData := by
  obtain ⟨fields, valid, spelled⟩ := left.exists_fields
  obtain ⟨others, otherValid, otherSpelled⟩ := right.exists_fields
  have layouts : fields.unsignedLayout = others.unsignedLayout := by
    rw [unsignedBytes, unsignedBytes, encodeUnsigned_eq_ok valid spelled,
      encodeUnsigned_eq_ok otherValid otherSpelled] at same
    exact Except.ok.inj same
  have fieldsEq := unsignedLayout_injective jdk valid otherValid layouts
  have resigned : ManifestData.Spells
      { left.toManifestData with signature := right.signature } others := by
    rw [← fieldsEq]
    exact ⟨spelled.keyId, spelled.requestNonce, spelled.sessionId,
      spelled.issuedAt, spelled.expiresAt, spelled.productId, spelled.channel,
      spelled.artifactId, spelled.originalFilename, spelled.artifactSize,
      spelled.artifactSha256, otherSpelled.signature⟩
  exact resigned.data_unique otherSpelled

end SessionManifest

end RymgaLoader.Protocol
