import RymgaLoader.Lib.BigEndian
import RymgaLoader.Protocol.Fields
import Mathlib.Data.List.Basic

/-!
# Wire layout of protocol version 1

The two messages as lists of typed fields together with the byte string each
field list occupies.  Nothing here decodes: the layouts and the validity
predicates are the common reference of the Java codec, the native parser and
the native request encoder.
-/

namespace RymgaLoader.Protocol

def requestMagic : Bytes := ascii ['R', 'L', 'S', 'R']

def manifestMagic : Bytes := ascii ['R', 'L', 'S', 'M']

def u16Layout (value : Nat) : Bytes := BigEndian.encode 2 value

def i64Layout (value : Int64) : Bytes :=
  BigEndian.encode 8 value.toUInt64.toNat

def stringLayout (bytes : Bytes) : Bytes := u16Layout bytes.length ++ bytes

/-- The fields of a session request; strings are their UTF-8 bytes. -/
@[ext] structure RequestFields where
  timestamp : Int64
  requestNonce : Bytes
  productId : Bytes
  channel : Bytes
  loaderVersion : Bytes
  installationId : Bytes
  license : Bytes
  deriving DecidableEq

structure RequestFields.Valid (fields : RequestFields) : Prop where
  timestamp : 0 ≤ fields.timestamp
  requestNonce : fields.requestNonce.length = nonceBytes
  productId : IsIdentifier 128 fields.productId
  channel : IsIdentifier 64 fields.channel
  loaderVersion : IsText 64 fields.loaderVersion
  installationId : IsText 128 fields.installationId
  license : IsText 4096 fields.license

def RequestFields.layout (fields : RequestFields) : Bytes :=
  requestMagic ++ u16Layout version ++ i64Layout fields.timestamp ++
    fields.requestNonce ++ stringLayout fields.productId ++
    stringLayout fields.channel ++ stringLayout fields.loaderVersion ++
    stringLayout fields.installationId ++ stringLayout fields.license

/-- The fields of a session manifest; strings are their UTF-8 bytes. -/
@[ext] structure ManifestFields where
  keyId : Bytes
  requestNonce : Bytes
  sessionId : Bytes
  issuedAt : Int64
  expiresAt : Int64
  productId : Bytes
  channel : Bytes
  artifactId : Bytes
  originalFilename : Bytes
  artifactSize : Int64
  artifactSha256 : Bytes
  signature : Bytes
  deriving DecidableEq

structure ManifestFields.Valid (fields : ManifestFields) : Prop where
  keyId : IsIdentifier 64 fields.keyId
  requestNonce : fields.requestNonce.length = nonceBytes
  sessionId : fields.sessionId.length = sessionIdBytes
  issuedAt : 0 ≤ fields.issuedAt
  expiresAt : fields.issuedAt < fields.expiresAt
  productId : IsIdentifier 128 fields.productId
  channel : IsIdentifier 64 fields.channel
  artifactId : IsIdentifier 128 fields.artifactId
  originalFilename : IsFilename fields.originalFilename
  artifactSize : 0 ≤ fields.artifactSize ∧
    fields.artifactSize.toInt ≤ maxArtifactBytes
  artifactSha256 : fields.artifactSha256.length = sha256Bytes
  signature : fields.signature.length = ed25519SignatureBytes

def ManifestFields.unsignedLayout (fields : ManifestFields) : Bytes :=
  manifestMagic ++ u16Layout version ++ stringLayout fields.keyId ++
    fields.requestNonce ++ fields.sessionId ++ i64Layout fields.issuedAt ++
    i64Layout fields.expiresAt ++ stringLayout fields.productId ++
    stringLayout fields.channel ++ stringLayout fields.artifactId ++
    stringLayout fields.originalFilename ++ i64Layout fields.artifactSize ++
    fields.artifactSha256

def ManifestFields.layout (fields : ManifestFields) : Bytes :=
  fields.unsignedLayout ++ fields.signature

@[simp] theorem length_u16Layout (value : Nat) :
    (u16Layout value).length = 2 := BigEndian.length_encode 2 value

@[simp] theorem length_i64Layout (value : Int64) :
    (i64Layout value).length = 8 := BigEndian.length_encode 8 _

@[simp] theorem length_stringLayout (bytes : Bytes) :
    (stringLayout bytes).length = bytes.length + 2 := by
  simp [stringLayout, Nat.add_comm]

theorem IsText.length_le {limit : Nat} {bytes : Bytes}
    (text : IsText limit bytes) : bytes.length ≤ limit := text.2.1

theorem IsIdentifier.length_le {limit : Nat} {bytes : Bytes}
    (identifier : IsIdentifier limit bytes) : bytes.length ≤ limit :=
  identifier.2.1

theorem RequestFields.Valid.length_layout_le {fields : RequestFields}
    (valid : fields.Valid) : fields.layout.length ≤ 4536 := by
  have product := valid.productId.length_le
  have channel := valid.channel.length_le
  have loader := valid.loaderVersion.length_le
  have installation := valid.installationId.length_le
  have license := valid.license.length_le
  have nonce := valid.requestNonce
  simp only [RequestFields.layout, List.length_append, length_u16Layout,
    length_i64Layout, length_stringLayout, nonce, nonceBytes]
  have magic : requestMagic.length = 4 := rfl
  omega

theorem ManifestFields.Valid.length_unsignedLayout_le {fields : ManifestFields}
    (valid : fields.Valid) : fields.unsignedLayout.length ≤ 775 := by
  have keyId := valid.keyId.length_le
  have product := valid.productId.length_le
  have channel := valid.channel.length_le
  have artifact := valid.artifactId.length_le
  have filename := valid.originalFilename.1.length_le
  have nonce := valid.requestNonce
  have session := valid.sessionId
  have hash := valid.artifactSha256
  simp only [ManifestFields.unsignedLayout, List.length_append,
    length_u16Layout, length_i64Layout, length_stringLayout, nonce, session,
    hash, nonceBytes, sessionIdBytes, sha256Bytes]
  have magic : manifestMagic.length = 4 := rfl
  omega

theorem ManifestFields.Valid.length_layout_le {fields : ManifestFields}
    (valid : fields.Valid) : fields.layout.length ≤ 839 := by
  have body := valid.length_unsignedLayout_le
  have signature := valid.signature
  simp only [ManifestFields.layout, List.length_append, signature,
    ed25519SignatureBytes]
  omega

private theorem shifted_byte (value shift : UInt64)
    (small : shift.toNat < 64) :
    (value >>> shift).toUInt8 =
      UInt8.ofNat (value.toNat / 2 ^ shift.toNat) := by
  apply UInt8.toNat_inj.mp
  rw [UInt64.toNat_toUInt8, UInt64.toNat_shiftRight, UInt8.toNat_ofNat',
    Nat.mod_eq_of_lt small, Nat.shiftRight_eq_div_pow]

theorem i64Layout_eq_shifts (value : Int64) :
    i64Layout value =
      ([56, 48, 40, 32, 24, 16, 8, 0] : List UInt64).map fun shift =>
        (value.toUInt64 >>> shift).toUInt8 := by
  simp only [List.map_cons, List.map_nil, i64Layout, BigEndian.encode]
  rw [shifted_byte _ 56 (by decide), shifted_byte _ 48 (by decide),
    shifted_byte _ 40 (by decide), shifted_byte _ 32 (by decide),
    shifted_byte _ 24 (by decide), shifted_byte _ 16 (by decide),
    shifted_byte _ 8 (by decide), shifted_byte _ 0 (by decide)]
  rfl

theorem decode_u16Layout {value : Nat} (fits : value < 65536) :
    BigEndian.decode (u16Layout value) = value :=
  BigEndian.decode_encode (by simpa using fits)

theorem u16Layout_decode {bytes : Bytes} (sized : bytes.length = 2) :
    u16Layout (BigEndian.decode bytes) = bytes := by
  rw [u16Layout, ← sized]
  exact BigEndian.encode_decode bytes

/-- The signed number a big-endian byte string of eight bytes stands for. -/
def i64OfBytes (bytes : Bytes) : Int64 :=
  (UInt64.ofNat (BigEndian.decode bytes)).toInt64

theorem i64OfBytes_i64Layout (value : Int64) :
    i64OfBytes (i64Layout value) = value := by
  have fits : value.toUInt64.toNat < 256 ^ 8 := value.toUInt64.toNat_lt
  rw [i64OfBytes, i64Layout, BigEndian.decode_encode fits,
    UInt64.ofNat_toNat, Int64.toInt64_toUInt64]

theorem i64Layout_i64OfBytes {bytes : Bytes} (sized : bytes.length = 8) :
    i64Layout (i64OfBytes bytes) = bytes := by
  have fits : BigEndian.decode bytes < 2 ^ 64 := by
    have bound := BigEndian.decode_lt bytes
    rw [sized] at bound
    exact bound
  rw [i64Layout, i64OfBytes, UInt64.toUInt64_toInt64,
    UInt64.toNat_ofNat', Nat.mod_eq_of_lt fits, ← sized]
  exact BigEndian.encode_decode bytes

end RymgaLoader.Protocol
