import RymgaLoader.Interop.Session

/-!
# Agreement over an insecure network

One gateway and any number of clients talk over a network that loses, repeats,
reorders and makes up messages.  Only signatures of the gateway are out of its
reach, and nonces cannot be guessed.  A client that acquires an artifact
agrees with the gateway on a session that was granted while the client waited,
and no two acquisitions agree on the same session.
-/

namespace RymgaLoader.Interop

open Protocol Gateway Native

/-- One acquisition on a machine of its own, from its call to its return. -/
structure Attempt (sodium : Sodium) where
  self : Process
  q : Native.Request
  license : Bytes
  inputs : Inputs
  before : World
  after : World
  result : Result
  artifact : Option Native.Artifact
  clock : 0 ≤ inputs.checkTime
  run : Program.Runs (alone self anyOutcome)
    (acquire sodium (some q) (some license) inputs) before (result, artifact)
    after

/-- The bytes the network handed over as the session response. -/
def Attempt.response {sodium : Sodium} (attempt : Attempt sodium) : Bytes :=
  attempt.inputs.response attempt.q attempt.license

/-- A nonce, and how many calls the gateway had answered when it was drawn. -/
structure Drawing where
  nonce : Bytes
  moment : Nat

structure Completion (sodium : Sodium) where
  attempt : Attempt sodium
  drawn : Nat
  completed : Nat

/-- The calls the gateway answered, the nonces the clients drew and the
acquisitions that returned, each in their order. -/
structure Network (sodium : Sodium) where
  events : List Event
  drawings : List Drawing
  completions : List (Completion sodium)

namespace Network

variable {gateway : Deployment} {sodium : Sodium} {publicKey : Bytes}
  {network : Network sodium}

/-- No request among the calls carries the nonce. -/
def Unasked (events : List Event) (nonce : Bytes) : Prop :=
  ∀ call, .createSession call ∈ events → ∀ request,
    SessionRequest.decode call.encodedRequest = .ok request →
      request.requestNonce ≠ nonce

/-- What a manifest shows to verify under the gateway's key was signed by the
gateway. -/
def Genuine (gateway : Deployment) (publicKey : Bytes) (events : List Event)
    (attempt : Attempt sodium) : Prop :=
  ∀ m, parseManifest attempt.response = some m →
    sodium.verifyDetached m.signature (attempt.response.take m.signedLength)
      publicKey = true →
    attempt.response.take m.signedLength ∈ gateway.signed events

/-- The gateway answers a call, whoever made it; a client draws a nonce; an
acquisition returns, after whatever the network answered it. -/
inductive Step (gateway : Deployment) (publicKey : Bytes) :
    Network sodium → Network sodium → Prop
  | serves {before : Network sodium} (event : Event) :
      Step gateway publicKey before
        { before with events := before.events ++ [event] }
  | draws {before : Network sodium} (nonce : Bytes)
      (unasked : Unasked before.events nonce)
      (undrawn : ∀ drawing ∈ before.drawings, drawing.nonce ≠ nonce) :
      Step gateway publicKey before
        { before with
          drawings := ⟨nonce, before.events.length⟩ :: before.drawings }
  | completes {before : Network sodium} (attempt : Attempt sodium)
      (moment : Nat) (drawn : ⟨attempt.inputs.nonce, moment⟩ ∈ before.drawings)
      (once : ∀ completion ∈ before.completions,
        completion.attempt.inputs.nonce ≠ attempt.inputs.nonce)
      (genuine : Genuine gateway publicKey before.events attempt) :
      Step gateway publicKey before
        { before with
          completions := ⟨attempt, moment, before.events.length⟩ ::
            before.completions }

inductive Reachable (gateway : Deployment) (publicKey : Bytes) :
    Network sodium → Prop
  | initial : Reachable gateway publicKey ⟨[], [], []⟩
  | step {before after} (reached : Reachable gateway publicKey before)
      (step : Step gateway publicKey before after) :
      Reachable gateway publicKey after

structure Sound (gateway : Deployment) (publicKey : Bytes)
    (network : Network sodium) : Prop where
  past : ∀ drawing ∈ network.drawings,
    drawing.moment ≤ network.events.length ∧
      Unasked (network.events.take drawing.moment) drawing.nonce
  drawn : ∀ completion ∈ network.completions,
    ⟨completion.attempt.inputs.nonce, completion.drawn⟩ ∈ network.drawings
  genuine : ∀ completion ∈ network.completions,
    completion.completed ≤ network.events.length ∧
      Genuine gateway publicKey (network.events.take completion.completed)
        completion.attempt
  once : (network.completions.map (·.attempt.inputs.nonce)).Nodup

theorem Sound.step {before after : Network sodium}
    (sound : Sound gateway publicKey before)
    (step : Step gateway publicKey before after) :
    Sound gateway publicKey after := by
  cases step with
  | serves event =>
      have longer : ∀ {moment}, moment ≤ before.events.length →
          moment ≤ (before.events ++ [event]).length ∧
            (before.events ++ [event]).take moment =
              before.events.take moment := by
        intro moment within
        refine ⟨by simp only [List.length_append]; omega, ?_⟩
        rw [List.take_append_of_le_length within]
      refine ⟨?_, sound.drawn, ?_, sound.once⟩
      · intro drawing member
        obtain ⟨within, unasked⟩ := sound.past drawing member
        obtain ⟨still, same⟩ := longer within
        rw [same]
        exact ⟨still, unasked⟩
      · intro completion member
        obtain ⟨within, genuine⟩ := sound.genuine completion member
        obtain ⟨still, same⟩ := longer within
        rw [same]
        exact ⟨still, genuine⟩
  | draws nonce unasked undrawn =>
      refine ⟨?_, ?_, sound.genuine, sound.once⟩
      · intro drawing member
        rcases List.mem_cons.mp member with rfl | member
        · rw [List.take_length]
          exact ⟨Nat.le_refl _, unasked⟩
        · exact sound.past drawing member
      · intro completion member
        exact List.mem_cons_of_mem _ (sound.drawn completion member)
  | completes attempt moment drawn once genuine =>
      refine ⟨sound.past, ?_, ?_, ?_⟩
      · intro completion member
        rcases List.mem_cons.mp member with rfl | member
        · exact drawn
        · exact sound.drawn completion member
      · intro completion member
        rcases List.mem_cons.mp member with rfl | member
        · rw [List.take_length]
          exact ⟨Nat.le_refl _, genuine⟩
        · exact sound.genuine completion member
      · refine List.nodup_cons.mpr ⟨fun member => ?_, sound.once⟩
        obtain ⟨completion, listed, same⟩ := List.mem_map.mp member
        exact once completion listed same

theorem sound_of_reachable (reached : Reachable gateway publicKey network) :
    Sound gateway publicKey network := by
  induction reached with
  | initial =>
      refine ⟨?_, ?_, ?_, List.nodup_nil⟩
      · rintro drawing ⟨⟩
      · rintro completion ⟨⟩
      · rintro completion ⟨⟩
  | step _ step ih => exact ih.step step

end Network

/-- What a client and the gateway agree on. -/
structure Agreed {sodium : Sodium} (gateway : Deployment)
    (attempt : Attempt sodium) (m : Manifest) (call : SessionCall) :
    Prop where
  granted : ∃ request issued signedPart,
    SessionRequest.decode call.encodedRequest = .ok request ∧
    gateway.Granted call issued ∧
    request.requestNonce = attempt.inputs.nonce ∧
    call.licenseValidator (.ofRequest request) = .ok true ∧
    SameManifest { m with signature := issued.signature } issued signedPart
  product : ∃ bytes, attempt.q.productId = some bytes ∧
    Spells gateway.configuration.artifactProductId bytes
  channel : ∃ bytes, attempt.q.channel = some bytes ∧
    Spells gateway.configuration.artifactChannel bytes
  issued : m.issuedAt = call.now
  recent : call.now.toInt ≤ attempt.inputs.checkTime.toInt + 120 ∧
    attempt.inputs.checkTime.toInt ≤ call.now.toInt +
      gateway.configuration.sessionTtlSeconds.toInt + 120
  delivered : ∃ name file,
    attempt.artifact = some ⟨some name, some (name, m.filename)⟩ ∧
    attempt.after.disk.lookup (.path name m.filename) = some file ∧
    (attempt.after.disk.files file).content.length =
      gateway.configured.channel.content.length ∧
    sodium.sha256 (attempt.after.disk.files file).content =
      gateway.sha256 gateway.configured.channel.content

variable {gateway : Deployment} {sodium : Sodium} {publicKey : Bytes}

/-- What an accepted manifest consists of. -/
private theorem exists_signed {bytes : Bytes} {m : Manifest}
    (parsed : parseManifest bytes = some m) :
    ∃ fields : ManifestFields, fields.Valid ∧ m = .ofFields fields ∧
      bytes.take m.signedLength = fields.unsignedLayout := by
  obtain ⟨fields, valid, rfl, rfl⟩ := parseManifest_eq_some_iff.mp parsed
  exact ⟨fields, valid, rfl, List.take_left⟩

/-- A manifest the gateway signed during a call. -/
private structure SignedDuring (gateway : Deployment) (call : SessionCall)
    (fields : ManifestFields) : Prop where
  granted : ∃ request issued,
    SessionRequest.decode call.encodedRequest = .ok request ∧
    gateway.Granted call issued ∧
    request.requestNonce = fields.requestNonce ∧
    call.licenseValidator (.ofRequest request) = .ok true ∧
    issued.toManifestData.Spells { fields with signature := issued.signature }
  valid : fields.Valid
  product : Spells gateway.configuration.artifactProductId fields.productId
  channel : Spells gateway.configuration.artifactChannel fields.channel
  issuedAt : fields.issuedAt = call.now
  expiresAt : fields.expiresAt.toInt = fields.issuedAt.toInt +
    gateway.configuration.sessionTtlSeconds.toInt
  artifactSize : fields.artifactSize = gateway.configured.size
  artifactSha256 : fields.artifactSha256 = gateway.configured.sha256

private theorem signedDuring_of_mem {events : List Event}
    {fields : ManifestFields} (valid : fields.Valid)
    (member : fields.unsignedLayout ∈ gateway.signed events) :
    ∃ call, .createSession call ∈ events ∧
      SignedDuring gateway call fields := by
  obtain ⟨decoded, spelled⟩ := SessionManifest.exists_of_valid gateway.jdk valid
  rcases List.mem_cons.mp member with check | member
  · refine absurd ?_ (Deployment.unsignedBytes_ne_selfCheck decoded)
    rw [← check]
    exact SessionManifest.encodeUnsigned_eq_ok valid spelled
  obtain ⟨event, listed, member⟩ := List.mem_flatMap.mp member
  cases event with
  | downloadArtifact _ _ => cases member
  | createSession call =>
      obtain ⟨request, manifest, signature, asked, prepared, unsigned,
        signs⟩ := Deployment.exists_prepared member
      obtain ⟨issued, granted, data, written⟩ :=
        Deployment.granted_of_prepared asked prepared unsigned signs
      obtain ⟨others, otherValid, otherSpelled⟩ := manifest.exists_fields
      have layouts : fields.unsignedLayout = others.unsignedLayout :=
        Except.ok.inj (unsigned.symm.trans
          (SessionManifest.encodeUnsigned_eq_ok otherValid otherSpelled))
      have same := SessionManifest.unsignedLayout_injective gateway.jdk valid
        otherValid layouts
      have resigned : manifest.toManifestData.Spells
          { fields with signature := others.signature } := by
        rw [same]
        exact otherSpelled
      have nonce : manifest.requestNonce = request.requestNonce := by
        rw [prepared.data]
      have productId : manifest.productId =
          gateway.configuration.artifactProductId := by
        rw [prepared.data, ← prepared.product]
      have channel : manifest.channel =
          gateway.configuration.artifactChannel := by
        rw [prepared.data, ← prepared.channel]
      have issuedAt : manifest.issuedAt = call.now := by rw [prepared.data]
      have size : manifest.artifactSize = gateway.configured.size := by
        rw [prepared.data]
      have hash : manifest.artifactSha256 = gateway.configured.sha256 := by
        rw [prepared.data]
      have times := prepared.expiresAt
      rw [resigned.expiresAt, resigned.issuedAt] at times
      refine ⟨call, listed, ⟨request, issued, asked, granted,
        nonce.symm.trans resigned.requestNonce, prepared.licensed, ?_⟩, valid,
        ?_, ?_, ?_, times, ?_, ?_⟩
      · rw [data]
        exact ⟨resigned.keyId, resigned.requestNonce, resigned.sessionId,
          resigned.issuedAt, resigned.expiresAt, resigned.productId,
          resigned.channel, resigned.artifactId, resigned.originalFilename,
          resigned.artifactSize, resigned.artifactSha256, rfl⟩
      · rw [← productId]
        exact resigned.productId
      · rw [← channel]
        exact resigned.channel
      · rw [← issuedAt]
        exact resigned.issuedAt.symm
      · rw [← size]
        exact resigned.artifactSize.symm
      · rw [← hash]
        exact resigned.artifactSha256.symm

/-- What the gateway signed is what the client received. -/
private theorem agreed_of_signed {attempt : Attempt sodium} {m : Manifest}
    {key : PublicKey} {call : SessionCall} {fields : ManifestFields}
    (guaranteed : Guaranteed sodium attempt.q attempt.license attempt.inputs
      attempt.artifact attempt.after.disk m key)
    (ofFields : m = .ofFields fields)
    (signed : SignedDuring gateway call fields) :
    Agreed gateway attempt m call := by
  obtain ⟨request, issued, decoded, granted, nonce, licensed, spelled⟩ :=
    signed.granted
  obtain ⟨channel, configured, -, -⟩ := gateway.configured_eq
  obtain ⟨name, file, handle, located, length, hash⟩ := guaranteed.stored
  have resigned : { fields with signature := issued.signature }.Valid := by
    obtain ⟨others, otherValid, otherSpelled⟩ := issued.exists_fields
    rw [spelled.fields_unique otherSpelled]
    exact otherValid
  have sent := guaranteed.nonce
  subst ofFields
  refine ⟨⟨request, issued, fields.unsignedLayout, decoded, granted,
    nonce.trans sent, licensed, sameManifest_ofFields resigned spelled⟩,
    ⟨_, guaranteed.product, signed.product⟩,
    ⟨_, guaranteed.channel, signed.channel⟩, signed.issuedAt, ?_, name, file,
    handle, located, ?_, ?_⟩
  · have issuedAt := guaranteed.issued
    have expires := guaranteed.expires
    have ttl := signed.expiresAt
    have moment := signed.issuedAt
    simp only [Manifest.ofFields] at issuedAt expires
    rw [moment] at issuedAt ttl
    omega
  · have size := signed.artifactSize
    rw [configured] at size ⊢
    simp only [Manifest.ofFields, size, FileChannel.toInt_size] at length
    exact Int.ofNat.inj length
  · rw [hash, configured]
    have same := signed.artifactSha256
    rw [configured] at same
    exact same

/-- In every run a client that acquires an artifact under the gateway's key
agrees with the gateway on a session granted after the client drew its nonce
and before the acquisition returned; no other acquisition agrees on it. -/
theorem acquire_agrees {network : Network sodium}
    (reached : Network.Reachable gateway publicKey network)
    {completion : Completion sodium}
    (member : completion ∈ network.completions)
    (ok : completion.attempt.result = .ok) :
    ∃ m key, Guaranteed sodium completion.attempt.q
        completion.attempt.license completion.attempt.inputs
        completion.attempt.artifact completion.attempt.after.disk m key ∧
      (key.publicKey = publicKey → ∃ index call,
        completion.drawn ≤ index ∧ index < completion.completed ∧
        network.events[index]? = some (.createSession call) ∧
        Agreed gateway completion.attempt m call ∧
        ∀ other ∈ network.completions, ∀ theirs,
          Agreed gateway other.attempt theirs call → other = completion) := by
  have sound := Network.sound_of_reachable reached
  obtain ⟨attempt, drawn, completed⟩ := completion
  dsimp only at ok ⊢
  have run := attempt.run
  rw [ok] at run
  rcases acquire_cases run with ⟨refused, -, -⟩ | ⟨_, keys, _, started,
    cleaned, ⟨⟩, someKeys, ⟨⟩, texts, nonempty, short, trusted, -, -, -,
    session⟩
  · cases refused
  obtain ⟨published, -, -⟩ := Program.wp_iff_runs.mp
    (openSession_wp texts nonempty short cleaned) _ _ session
  obtain ⟨m, key, name, accepted, -, -, -, handle, stored⟩ := published rfl
  have guaranteed : Guaranteed sodium attempt.q attempt.license attempt.inputs
      attempt.artifact attempt.after.disk m key := by
    rw [show attempt.artifact = _ from handle]
    exact guaranteed_of_accepted attempt.clock someKeys trusted accepted stored
  refine ⟨m, key, guaranteed, fun genuineKey => ?_⟩
  obtain ⟨within, genuine⟩ := sound.genuine _ member
  obtain ⟨fields, valid, ofFields, layout⟩ := exists_signed accepted.parsed
  have signature := accepted.signed
  rw [genuineKey] at signature
  have signed := genuine m accepted.parsed signature
  rw [Attempt.response, layout] at signed
  obtain ⟨call, listed, signedDuring⟩ := signedDuring_of_mem valid signed
  have agreed := agreed_of_signed guaranteed ofFields signedDuring
  obtain ⟨request, issued, signedPart, decoded, granted, nonce, -⟩ :=
    agreed.granted
  obtain ⟨index, found⟩ := List.getElem?_of_mem listed
  have early : index < completed := by
    by_contra late
    rw [List.getElem?_take, if_neg late] at found
    cases found
  rw [List.getElem?_take, if_pos early] at found
  refine ⟨index, call, ?_, early, found, agreed, ?_⟩
  · by_contra soon
    obtain ⟨-, unasked⟩ := sound.past _ (sound.drawn _ member)
    refine unasked call ?_ request decoded nonce
    refine List.mem_of_getElem? (i := index) ?_
    rw [List.getElem?_take, if_pos (Nat.lt_of_not_le soon), found]
  · intro other listedOther theirs agreedOther
    obtain ⟨requestOther, _, _, decodedOther, -, nonceOther, -⟩ :=
      agreedOther.granted
    rw [decoded] at decodedOther
    cases decodedOther
    exact List.inj_on_of_nodup_map sound.once listedOther member
      (nonceOther.symm.trans nonce)

private theorem signed_small : smallManifest.unsignedLayout ∈
    Deployment.smallGateway.signed [.createSession honestCall] := by
  decide +kernel

private theorem response_small :
    smallInputs.response smallRequest [0x6C] = smallManifest.layout := by
  decide +kernel

private theorem parsed_small :
    (parseManifest smallManifest.layout).map
        (fun m => smallManifest.layout.take m.signedLength) =
      some smallManifest.unsignedLayout := by
  decide +kernel

/-- The client draws its nonce, the gateway answers the honest call, and the
client acquires the artifact. -/
theorem acquire_agrees_small : ∃ network : Network smallSodium,
    Network.Reachable Deployment.smallGateway (List.replicate 32 0) network ∧
    ∃ completion ∈ network.completions, ∃ m call,
      Agreed Deployment.smallGateway completion.attempt m call := by
  obtain ⟨after, followed⟩ := follow_small
  have run : Program.Runs (alone 0 anyOutcome) _ _ _ _ :=
    Program.runs_of_follow (alone_of_machine fun _ _ => trivial) followed
  let attempt : Attempt smallSodium :=
    ⟨0, smallRequest, [0x6C], smallInputs, World.initial, after, _, _,
      by decide, run⟩
  have response : attempt.response = smallManifest.layout := response_small
  have reached : Network.Reachable Deployment.smallGateway
      (List.replicate 32 0) ⟨[.createSession honestCall],
        [⟨smallInputs.nonce, 0⟩], [⟨attempt, 0, 1⟩]⟩ := by
    refine .step (.step (.step .initial (.draws smallInputs.nonce ?_ ?_))
      (.serves (.createSession honestCall)))
      (.completes attempt 0 (List.mem_singleton_self _) ?_ ?_)
    · rintro call ⟨⟩
    · rintro drawing ⟨⟩
    · rintro completion ⟨⟩
    · intro m parsed _
      rw [response] at parsed ⊢
      have layout := parsed_small
      rw [parsed, Option.map_some, Option.some.injEq] at layout
      rw [layout]
      exact signed_small
  obtain ⟨m, key, guaranteed, agreement⟩ :=
    acquire_agrees reached (List.mem_singleton_self _) rfl
  have trusted : key.publicKey = List.replicate 32 0 := by
    have member : key ∈ (smallRequest.trustedKeys.getD []).filter
        fun candidate => candidate.keyId = some m.keyId := by
      rw [guaranteed.trusted]
      exact List.mem_singleton_self _
    rw [List.mem_singleton.mp (List.mem_of_mem_filter member)]
  obtain ⟨_, call, -, -, -, agreed, -⟩ := agreement trusted
  exact ⟨_, reached, _, List.mem_singleton_self _, m, call, agreed⟩

end RymgaLoader.Interop
