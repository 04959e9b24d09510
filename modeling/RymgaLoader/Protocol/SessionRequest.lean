import RymgaLoader.Protocol.WireStreams

/-!
# Session requests of the Java protocol library

`SessionRequest` with its codec, in the shape of the manifest codec: the
constructor's checks are a field of the type, and decoding is exact for the
request layout.
-/

namespace RymgaLoader.Protocol

open ExactReader

/-- The arguments of the `SessionRequest` constructor. -/
@[ext] structure RequestData where
  timestamp : Int64
  requestNonce : Bytes
  productId : JavaString
  channel : JavaString
  loaderVersion : JavaString
  installationId : JavaString
  license : JavaString
  deriving DecidableEq

def RequestData.check (data : RequestData) : Checked Unit := do
  Wire.requireTimestamp "timestamp" data.timestamp
  Wire.requireBytes "requestNonce" data.requestNonce nonceBytes
  Wire.requireIdentifier "productId" data.productId 128
  Wire.requireIdentifier "channel" data.channel 64
  Wire.requireString "loaderVersion" data.loaderVersion 64
  Wire.requireString "installationId" data.installationId 128
  Wire.requireString "license" data.license 4096

structure SessionRequest extends RequestData where
  checked : toRequestData.check = .ok ()

namespace SessionRequest

/-- The constructor. -/
def make (data : RequestData) : Checked SessionRequest :=
  match checked : data.check with
  | .ok () => .ok ⟨data, checked⟩
  | .error exception => .error exception

def encode (request : SessionRequest) : Checked Bytes :=
  Wire.Writer.finish (do
    Wire.Writer.magic requestMagic
    Wire.Writer.u16 version
    Wire.Writer.i64 request.timestamp
    Wire.Writer.bytes request.requestNonce
    Wire.Writer.string request.productId
    Wire.Writer.string request.channel
    Wire.Writer.string request.loaderVersion
    Wire.Writer.string request.installationId
    Wire.Writer.string request.license)
    maxSessionRequestBytes

def read : Wire.Reader SessionRequest := do
  Wire.Reader.magic requestMagic
  let version ← Wire.Reader.u16
  StateT.lift (Wire.requireVersion version)
  let timestamp ← Wire.Reader.i64
  let requestNonce ← Wire.Reader.bytes nonceBytes
  let productId ← Wire.Reader.string "productId" 128
  let channel ← Wire.Reader.string "channel" 64
  let loaderVersion ← Wire.Reader.string "loaderVersion" 64
  let installationId ← Wire.Reader.string "installationId" 128
  let license ← Wire.Reader.string "license" 4096
  StateT.lift (make { timestamp, requestNonce, productId, channel,
                      loaderVersion, installationId, license })

def decode (encoded : Bytes) : Checked SessionRequest :=
  Wire.Reader.run read encoded maxSessionRequestBytes

end SessionRequest

/-- The constructor arguments denote the field list. -/
structure RequestData.Spells (data : RequestData) (fields : RequestFields) :
    Prop where
  timestamp : data.timestamp = fields.timestamp
  requestNonce : data.requestNonce = fields.requestNonce
  productId : Protocol.Spells data.productId fields.productId
  channel : Protocol.Spells data.channel fields.channel
  loaderVersion : Protocol.Spells data.loaderVersion fields.loaderVersion
  installationId : Protocol.Spells data.installationId fields.installationId
  license : Protocol.Spells data.license fields.license

theorem RequestData.Spells.data_unique {left right : RequestData}
    {fields : RequestFields} (first : left.Spells fields)
    (second : right.Spells fields) : left = right := by
  ext1
  · rw [first.timestamp, second.timestamp]
  · rw [first.requestNonce, second.requestNonce]
  · exact first.productId.value_unique second.productId
  · exact first.channel.value_unique second.channel
  · exact first.loaderVersion.value_unique second.loaderVersion
  · exact first.installationId.value_unique second.installationId
  · exact first.license.value_unique second.license

theorem RequestData.check_eq_ok_iff {data : RequestData} {done : Unit} :
    data.check = .ok done ↔
      ∃ fields : RequestFields, fields.Valid ∧ data.Spells fields := by
  simp only [RequestData.check, Checked.bind_eq_ok_iff,
    Wire.requireIdentifier_eq_ok_iff, Wire.requireString_eq_ok_iff,
    Wire.requireBytes_eq_ok_iff, Wire.requireTimestamp_eq_ok_iff,
    exists_const]
  constructor
  · rintro ⟨timestampOk, nonceSized, ⟨productId, productSpelled, productOk⟩,
      ⟨channel, channelSpelled, channelOk⟩,
      ⟨loader, loaderSpelled, loaderOk⟩,
      ⟨installation, installationSpelled, installationOk⟩,
      ⟨license, licenseSpelled, licenseOk⟩⟩
    exact ⟨⟨data.timestamp, data.requestNonce, productId, channel, loader,
        installation, license⟩,
      ⟨timestampOk, nonceSized, productOk, channelOk, loaderOk,
        installationOk, licenseOk⟩,
      ⟨rfl, rfl, productSpelled, channelSpelled, loaderSpelled,
        installationSpelled, licenseSpelled⟩⟩
  · rintro ⟨fields, valid, spelled⟩
    rw [spelled.requestNonce, spelled.timestamp]
    exact ⟨valid.timestamp, valid.requestNonce,
      ⟨_, spelled.productId, valid.productId⟩,
      ⟨_, spelled.channel, valid.channel⟩,
      ⟨_, spelled.loaderVersion, valid.loaderVersion⟩,
      ⟨_, spelled.installationId, valid.installationId⟩,
      ⟨_, spelled.license, valid.license⟩⟩

namespace SessionRequest

theorem make_eq_ok_iff {data : RequestData} {request : SessionRequest} :
    make data = .ok request ↔ request.toRequestData = data := by
  unfold make
  constructor
  · intro made
    split at made
    · cases made
      rfl
    · cases made
  · rintro rfl
    split
    · rfl
    · rename_i exception failed
      rw [request.checked] at failed
      cases failed

theorem exists_fields (request : SessionRequest) :
    ∃ fields : RequestFields, fields.Valid ∧
      request.toRequestData.Spells fields :=
  RequestData.check_eq_ok_iff.mp request.checked

theorem exists_of_valid {fields : RequestFields} (valid : fields.Valid) :
    ∃ request : SessionRequest, request.toRequestData.Spells fields := by
  obtain ⟨productId, productSpelled⟩ := valid.productId.isText.exists_spells
  obtain ⟨channel, channelSpelled⟩ := valid.channel.isText.exists_spells
  obtain ⟨loader, loaderSpelled⟩ := valid.loaderVersion.exists_spells
  obtain ⟨installation, installationSpelled⟩ :=
    valid.installationId.exists_spells
  obtain ⟨license, licenseSpelled⟩ := valid.license.exists_spells
  have spelled : RequestData.Spells ⟨fields.timestamp, fields.requestNonce,
      productId, channel, loader, installation, license⟩ fields :=
    ⟨rfl, rfl, productSpelled, channelSpelled, loaderSpelled,
      installationSpelled, licenseSpelled⟩
  exact ⟨⟨_, RequestData.check_eq_ok_iff.mpr ⟨fields, valid, spelled⟩⟩,
    spelled⟩

theorem encode_eq_ok {request : SessionRequest} {fields : RequestFields}
    (valid : fields.Valid) (spelled : request.toRequestData.Spells fields) :
    request.encode = .ok fields.layout := by
  have product := valid.productId.length_le
  have channel := valid.channel.length_le
  have loader := valid.loaderVersion.length_le
  have installation := valid.installationId.length_le
  have license := valid.license.length_le
  apply Wire.Writes.finish_eq_ok
  · rw [RequestFields.layout, ← spelled.requestNonce, ← spelled.timestamp]
    simp only [List.append_assoc]
    exact (Wire.Writes.bytes requestMagic).seq <|
      (Wire.Writes.u16 (by decide)).seq <| (Wire.Writes.i64 _).seq <|
      (Wire.Writes.bytes _).seq <|
      (Wire.Writes.string spelled.productId (by omega)).seq <|
      (Wire.Writes.string spelled.channel (by omega)).seq <|
      (Wire.Writes.string spelled.loaderVersion (by omega)).seq <|
      (Wire.Writes.string spelled.installationId (by omega)).seq <|
      Wire.Writes.string spelled.license (by omega)
  · exact valid.length_layout_le.trans (by decide)

private theorem read_exact :
    Exact read (fun request bytes => ∃ fields : RequestFields,
      fields.Valid ∧ request.toRequestData.Spells fields ∧
        bytes = fields.layout) := by
  refine (Exact.bind (Wire.Reader.magic_exact requestMagic) fun _ =>
    Exact.bind Wire.Reader.u16_exact fun version =>
    Exact.bind (Exact.lift (Wire.requireVersion version)) fun _ =>
    Exact.bind Wire.Reader.i64_exact fun timestamp =>
    Exact.bind (Wire.Reader.bytes_exact nonceBytes) fun requestNonce =>
    Exact.bind (Wire.Reader.string_exact (by decide)) fun productId =>
    Exact.bind (Wire.Reader.string_exact (by decide)) fun channel =>
    Exact.bind (Wire.Reader.string_exact (by decide)) fun loaderVersion =>
    Exact.bind (Wire.Reader.string_exact (by decide)) fun installationId =>
    Exact.bind (Wire.Reader.string_exact (by decide)) fun license =>
    Exact.lift (make _)).congr ?_
  intro request bytes
  constructor
  · rintro ⟨_, _, _, rfl, rest, rfl⟩
    obtain ⟨version, _, _, ⟨-, rfl⟩, rest, rfl⟩ := rest
    obtain ⟨_, _, _, ⟨supported, rfl⟩, rest, rfl⟩ := rest
    obtain ⟨timestamp, _, _, rfl, rest, rfl⟩ := rest
    obtain ⟨_, nonce, _, ⟨rfl, -⟩, rest, rfl⟩ := rest
    obtain ⟨product, _, _, ⟨productText, productSpelled, -, -, rfl⟩, rest,
      rfl⟩ := rest
    obtain ⟨channel, _, _, ⟨channelText, channelSpelled, -, -, rfl⟩, rest,
      rfl⟩ := rest
    obtain ⟨loader, _, _, ⟨loaderText, loaderSpelled, -, -, rfl⟩, rest,
      rfl⟩ := rest
    obtain ⟨installation, _, _, ⟨installationText, installationSpelled, -, -,
      rfl⟩, rest, rfl⟩ := rest
    obtain ⟨license, _, _, ⟨licenseText, licenseSpelled, -, -, rfl⟩, rest,
      rfl⟩ := rest
    obtain ⟨made, rfl⟩ := rest
    have data := make_eq_ok_iff.mp made
    have one : version = Protocol.version := check_eq_ok_iff.mp supported
    subst one
    obtain ⟨fields, valid, spelled⟩ := request.exists_fields
    refine ⟨fields, valid, spelled, ?_⟩
    rw [data] at spelled
    rw [productSpelled.bytes_unique spelled.productId,
      channelSpelled.bytes_unique spelled.channel,
      loaderSpelled.bytes_unique spelled.loaderVersion,
      installationSpelled.bytes_unique spelled.installationId,
      licenseSpelled.bytes_unique spelled.license, RequestFields.layout,
      ← spelled.requestNonce, ← spelled.timestamp]
    simp only [List.append_assoc, List.append_nil]
  · rintro ⟨fields, valid, spelled, rfl⟩
    have sized := valid.requestNonce
    rw [← spelled.requestNonce] at sized
    rw [RequestFields.layout, ← spelled.requestNonce, ← spelled.timestamp]
    simp only [List.append_assoc]
    refine ⟨(), requestMagic, _, rfl, ?_, rfl⟩
    refine ⟨Protocol.version, _, _, ⟨by decide, rfl⟩, ?_, rfl⟩
    refine ⟨(), [], _, ⟨check_eq_ok_iff.mpr rfl, rfl⟩, ?_, rfl⟩
    refine ⟨request.timestamp, _, _, rfl, ?_, rfl⟩
    refine ⟨request.requestNonce, _, _, ⟨rfl, sized⟩, ?_, rfl⟩
    refine ⟨request.productId, _, _, ⟨fields.productId, spelled.productId,
      valid.productId.1, valid.productId.length_le, rfl⟩, ?_, rfl⟩
    refine ⟨request.channel, _, _, ⟨fields.channel, spelled.channel,
      valid.channel.1, valid.channel.length_le, rfl⟩, ?_, rfl⟩
    refine ⟨request.loaderVersion, _, _, ⟨fields.loaderVersion,
      spelled.loaderVersion, valid.loaderVersion.1,
      valid.loaderVersion.length_le, rfl⟩, ?_, rfl⟩
    refine ⟨request.installationId, _, _, ⟨fields.installationId,
      spelled.installationId, valid.installationId.1,
      valid.installationId.length_le, rfl⟩, ?_, rfl⟩
    refine ⟨request.license, _, [], ⟨fields.license, spelled.license,
      valid.license.1, valid.license.length_le, rfl⟩, ?_,
      (List.append_nil _).symm⟩
    exact ⟨make_eq_ok_iff.mpr rfl, rfl⟩

/-- `SessionRequest.decode` returns a request exactly on the layout of the
field list the request denotes. -/
theorem decode_eq_ok_iff {encoded : Bytes} {request : SessionRequest} :
    decode encoded = .ok request ↔
      ∃ fields : RequestFields, fields.Valid ∧
        request.toRequestData.Spells fields ∧ encoded = fields.layout := by
  rw [decode, Wire.Reader.run_eq_ok_iff read_exact, and_iff_right_iff_imp]
  rintro ⟨fields, valid, -, rfl⟩
  exact valid.length_layout_le.trans (by decide)

theorem decode_eq_of_isPrefix {short long : Bytes}
    {left right : SessionRequest} (first : decode short = .ok left)
    (second : decode long = .ok right) (within : short <+: long) :
    short = long := by
  obtain ⟨fields, shortPlaced⟩ := decode_eq_ok_iff.mp first
  obtain ⟨others, longPlaced⟩ := decode_eq_ok_iff.mp second
  exact (read_exact.eq_of_isPrefix ⟨fields, shortPlaced⟩ ⟨others, longPlaced⟩
    within).2

theorem exists_encode_decode (request : SessionRequest) :
    ∃ encoded, request.encode = .ok encoded ∧ decode encoded = .ok request := by
  obtain ⟨fields, valid, spelled⟩ := request.exists_fields
  exact ⟨fields.layout, encode_eq_ok valid spelled,
    decode_eq_ok_iff.mpr ⟨fields, valid, spelled, rfl⟩⟩

theorem encode_of_decode {encoded : Bytes} {request : SessionRequest}
    (decoded : decode encoded = .ok request) :
    request.encode = .ok encoded := by
  obtain ⟨fields, valid, spelled, rfl⟩ := decode_eq_ok_iff.mp decoded
  exact encode_eq_ok valid spelled

theorem encode_injective {left right : SessionRequest}
    (same : left.encode = right.encode) : left = right := by
  obtain ⟨encoded, written, read⟩ := left.exists_encode_decode
  obtain ⟨others, otherWritten, otherRead⟩ := right.exists_encode_decode
  rw [written, otherWritten] at same
  cases same
  rw [read] at otherRead
  exact Except.ok.inj otherRead

end SessionRequest

end RymgaLoader.Protocol
