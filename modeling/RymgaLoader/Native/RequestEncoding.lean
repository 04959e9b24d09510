import RymgaLoader.Native.Acquire

/-!
# The native request encoder

`encode_request` writes the request layout: the fields that pass the argument
checks of `rymga_loader_acquire` always fit the buffer.
-/

namespace RymgaLoader.Native

open Protocol

/-- The texts of an admitted request. -/
structure Request.Texts (q : Request)
    (product channel loader installation : Bytes) : Prop where
  productId : q.productId = some product
  product : IsIdentifier 128 product
  channelId : q.channel = some channel
  channel : IsIdentifier 64 channel
  loaderVersion : q.loaderVersion = some loader
  loader : IsText 64 loader
  installationId : q.installationId = some installation
  installation : IsText 128 installation

theorem exists_texts {q : Request} (admitted : requestTextsOk q = true) :
    ∃ product channel loader installation,
      q.Texts product channel loader installation := by
  unfold requestTextsOk at admitted
  split at admitted
  · cases admitted
  · simp only [Bool.and_eq_true] at admitted
    obtain ⟨⟨⟨⟨-, productOk⟩, channelOk⟩, loaderOk⟩, installationOk⟩ := admitted
    obtain ⟨product, productId, isProduct⟩ := identifier_iff.mp productOk
    obtain ⟨channel, channelId, isChannel⟩ := identifier_iff.mp channelOk
    obtain ⟨loader, loaderVersion, isLoader⟩ := textField_iff.mp loaderOk
    obtain ⟨installation, installationId, isInstallation⟩ :=
      textField_iff.mp installationOk
    exact ⟨product, channel, loader, installation, productId, isProduct,
      channelId, isChannel, loaderVersion, isLoader, installationId,
      isInstallation⟩

theorem encodeRequest_fills {self : Process}
    {allowed : (call : Call) → World → Answer call → Prop} {q : Request}
    {product channel loader installation nonce license : Bytes} {now : Int64}
    (texts : q.Texts product channel loader installation)
    (epoch : 0 ≤ now) (nonempty : license ≠ [])
    (short : license.length ≤ 4096) :
    Fills self allowed (encodeRequest q nonce license now)
      (RequestFields.layout ⟨now, nonce, product, channel, loader,
        installation, license⟩) := by
  have productLength := texts.product.length_le
  have channelLength := texts.channel.length_le
  have loaderLength := texts.loader.length_le
  have installationLength := texts.installation.length_le
  have pieces : RequestFields.layout ⟨now, nonce, product, channel, loader,
      installation, license⟩ = [requestMagic, u16Layout 1, i64Layout now,
        nonce, stringLayout product, stringLayout channel,
        stringLayout loader, stringLayout installation,
        stringLayout license].flatten := by
    simp only [RequestFields.layout, List.flatten_cons, List.flatten_nil,
      List.append_assoc, List.append_nil]
    rfl
  rw [encodeRequest, if_neg (not_not_intro epoch), pieces, texts.productId,
    texts.channelId, texts.loaderVersion, texts.installationId]
  refine Fills.allOf (.cons (Fills.put _) <| .cons (Fills.u16 (by decide)) <|
    .cons (Fills.i64 _) <| .cons (Fills.put _) <| .cons (Fills.string ?_ ?_) <|
    .cons (Fills.string ?_ ?_) <| .cons (Fills.string ?_ ?_) <|
    .cons (Fills.string ?_ ?_) <| .cons (Fills.string nonempty ?_) .nil)
  · exact texts.product.1
  · exact productLength.trans (by decide)
  · exact texts.channel.1
  · exact channelLength.trans (by decide)
  · exact texts.loader.1
  · exact loaderLength.trans (by decide)
  · exact texts.installation.1
  · exact installationLength.trans (by decide)
  · omega

/-- A request with one-letter fields. -/
def smallRequest : Request where
  endpoint := some (ascii "https://g".toList)
  productId := some [0x70]
  channel := some [0x63]
  loaderVersion := some [0x31]
  installationId := some [0x69]
  runtimeDirectory := ascii "/r".toList
  caBundlePath := none
  trustedKeys := some [⟨some [0x6B], List.replicate 32 0⟩]
  timeoutSeconds := 10

end RymgaLoader.Native
