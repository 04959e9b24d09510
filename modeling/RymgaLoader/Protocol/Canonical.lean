import RymgaLoader.Protocol.SessionManifest
import RymgaLoader.Protocol.SessionRequest

/-!
# The wire format is canonical

Encoding and decoding are inverse to each other on both messages: a value has
one encoding, an accepted byte string has one value, and no accepted message
starts another one.
-/

namespace RymgaLoader.Protocol

/-- What a canonical codec of one message type satisfies. -/
structure CanonicalCodec (encode : α → Checked Bytes)
    (decode : Bytes → Checked α) : Prop where
  total : ∀ message, ∃ encoded, encode message = .ok encoded ∧
    decode encoded = .ok message
  exact : ∀ encoded message, decode encoded = .ok message →
    encode message = .ok encoded
  injective : ∀ left right, encode left = encode right → left = right
  prefixFree : ∀ short long left right, decode short = .ok left →
    decode long = .ok right → short <+: long → short = long

/-- Both message codecs are canonical under every case mapping, and the signed
part of a manifest determines every field but the signature. -/
theorem wireFormat_canonical (jdk : CaseMapping) :
    CanonicalCodec SessionRequest.encode SessionRequest.decode ∧
      CanonicalCodec (fun manifest : SessionManifest jdk => manifest.encode)
        (SessionManifest.decode jdk) ∧
      (∀ manifest : SessionManifest jdk,
        ∃ body, manifest.unsignedBytes = .ok body) ∧
      ∀ left right : SessionManifest jdk,
        left.unsignedBytes = right.unsignedBytes →
          { left.toManifestData with signature := right.signature } =
            right.toManifestData := by
  refine ⟨⟨?_, ?_, ?_, ?_⟩, ⟨?_, ?_, ?_, ?_⟩, ?_, ?_⟩
  · exact SessionRequest.exists_encode_decode
  · intro encoded request decoded
    exact SessionRequest.encode_of_decode decoded
  · intro left right same
    exact SessionRequest.encode_injective same
  · intro short long left right first second within
    exact SessionRequest.decode_eq_of_isPrefix first second within
  · exact SessionManifest.exists_encode_decode
  · intro encoded manifest decoded
    exact SessionManifest.encode_of_decode decoded
  · intro left right same
    exact SessionManifest.encode_injective same
  · intro short long left right first second within
    exact SessionManifest.decode_eq_of_isPrefix first second within
  · intro manifest
    obtain ⟨fields, valid, spelled⟩ := manifest.exists_fields
    exact ⟨_, SessionManifest.encodeUnsigned_eq_ok valid spelled⟩
  · intro left right same
    exact SessionManifest.unsignedBytes_injective same

end RymgaLoader.Protocol
