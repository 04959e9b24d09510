import RymgaLoader.Native.Download
import RymgaLoader.Native.RequestEncoding

/-!
# Acquisition alone

Every run of `rymga_loader_acquire` that nobody interferes with, whatever its
calls, its clock and its servers answer.  A run that reports success has
published exactly what the accepted manifest promises; any other run returns
nothing and, where deletions succeed, leaves nothing.
-/

namespace RymgaLoader.Native

open Disk Protocol

section

variable {self : Process}
  {allowed : (call : Call) → World → Answer call → Prop}

theorem wp_pidOf {α : Type} (program : Os α) (before : World) :
    Program.wp (alone self allowed) program
      (fun _ after => after.pidOf = before.pidOf) before := by
  have preserved : ∀ call (world : World) answer (after : World),
      world.pidOf = before.pidOf →
      alone self allowed call world answer after →
        after.pidOf = before.pidOf := by
    intro call world answer after kept answered
    rw [(World.exec_frame answered.1).2.1, kept]
  exact Program.wp_of_preserved preserved program rfl

private theorem quiet_step {call : Call} {before after : World}
    {answer : Answer call} (quiet : call.changesDisk = false)
    (answered : alone self allowed call before answer after) :
    after.disk = before.disk ∧ after.pidOf = before.pidOf :=
  ⟨World.exec_disk quiet answered.1, (World.exec_frame answered.1).2.1⟩

/-- What the response callback did with a whole transfer. -/
structure ResponseReceived
    (allowed : (call : Call) → World → Answer call → Prop) (b : Buffer)
    (chunks : List Bytes) (before : World) (outcome : Bool × Buffer)
    (after : World) : Prop where
  disk : after.disk = before.disk
  data : outcome.1 = true → outcome.2.data = b.data ++ chunks.flatten
  succeeds : Allocates allowed →
    b.data.length + chunks.flatten.length ≤ b.limit → outcome.1 = true

private theorem receiveMemory_wp {b : Buffer} (bounded : b.Bounded)
    (chunk : Bytes) (before : World) :
    Program.wp (alone self allowed)
      ((receiveMemory chunk 1 chunk.length).run b)
      (fun outcome after => after.disk = before.disk ∧ outcome.2.Bounded ∧
        outcome.2.limit = b.limit ∧
        (outcome.1 = chunk.length → outcome.2.data = b.data ++ chunk) ∧
        (Allocates allowed → b.data.length + chunk.length ≤ b.limit →
          outcome.1 = chunk.length)) before := by
  have small := bounded.small
  rw [receiveMemory, transferLength_one]
  by_cases fits : chunk.length < sizeRange
  · rw [if_pos fits]
    dsimp only
    rw [StateT.run_bind, Program.wp_bind, List.take_length]
    refine Program.wp_mono (bPut_wp bounded chunk before) ?_
    rintro ⟨ok, next⟩ after ⟨disk, limit, data, room, succeeds⟩
    dsimp only at limit data room succeeds
    have within : next.data.length ≤ b.limit := by
      cases ok with
      | true =>
          have length := room rfl
          rw [data, if_pos rfl, List.length_append]
          exact length
      | false => simpa [data] using bounded.within
    have still : next.Bounded := by
      rw [← limit] at small within
      exact ⟨within, small⟩
    cases ok with
    | true => exact ⟨disk, still, limit, fun _ => data, fun _ _ => rfl⟩
    | false =>
        refine ⟨disk, still, limit, ?_, fun allocates room =>
          absurd (succeeds allocates room) (by simp)⟩
        intro taken
        have empty : chunk = [] := List.length_eq_zero_iff.mp taken.symm
        rw [empty, List.append_nil]
        exact data
  · rw [if_neg fits]
    have positive : 0 < sizeRange := by decide
    refine ⟨rfl, bounded, rfl, ?_, ?_⟩
    · intro taken
      change 0 = chunk.length at taken
      omega
    · intro _ room
      omega

theorem deliver_receiveMemory_wp {b : Buffer} (bounded : b.Bounded)
    (chunks : List Bytes) (before : World) :
    Program.wp (alone self allowed)
      (deliver (fun b chunk => (receiveMemory chunk 1 chunk.length).run b) b
        chunks)
      (ResponseReceived allowed b chunks before) before := by
  induction chunks generalizing b before with
  | nil => exact ⟨rfl, fun _ => (List.append_nil _).symm, fun _ _ => rfl⟩
  | cons chunk chunks ih =>
      rw [deliver, Program.wp_bind]
      refine Program.wp_mono (receiveMemory_wp bounded chunk before) ?_
      rintro ⟨taken, next⟩ between ⟨disk, still, limit, data, succeeds⟩
      dsimp only at still limit data succeeds ⊢
      by_cases all : taken = chunk.length
      · rw [if_pos all]
        have grown := data all
        refine Program.wp_mono (ih still between) ?_
        rintro ⟨delivered, final⟩ after ⟨disk', data', succeeds'⟩
        refine ⟨disk'.trans disk, ?_, ?_⟩
        · intro done
          rw [data' done, grown, List.flatten_cons, List.append_assoc]
        · intro allocates room
          apply succeeds' allocates
          rw [grown, limit, List.length_append]
          rw [List.flatten_cons, List.length_append] at room
          omega
      · rw [if_neg all]
        refine ⟨disk, by simp, fun allocates room => ?_⟩
        rw [List.flatten_cons, List.length_append] at room
        exact absurd (succeeds allocates (by omega)) all

/-- What `perform` returns for a reply. -/
structure Performed (allowed : (call : Call) → World → Answer call → Prop)
    (reply : Reply) (limit : Nat) (before : World)
    (outcome : Result × Buffer) (after : World) : Prop where
  disk : after.disk = before.disk
  data : outcome.1 = .ok → outcome.2.data = reply.chunks.flatten
  succeeds : Allocates allowed → reply.transferred = true →
    200 ≤ reply.status → reply.status < 300 →
    reply.chunks.flatten.length ≤ limit → outcome.1 = .ok

theorem perform_wp {limit : Nat} (small : limit < sizeRange) (reply : Reply)
    (before : World) :
    Program.wp (alone self allowed) (perform reply (.empty limit))
      (Performed allowed reply limit before) before := by
  rw [perform, Program.wp_bind]
  have bounded : (Buffer.empty limit).Bounded := ⟨Nat.zero_le _, small⟩
  refine Program.wp_mono (deliver_receiveMemory_wp bounded reply.chunks
    before) ?_
  rintro ⟨delivered, response⟩ after ⟨disk, data, succeeds⟩
  dsimp only at data succeeds ⊢
  split
  · rename_i broken
    refine ⟨disk, by simp, ?_⟩
    intro allocates transferred _ _ room
    rw [transferred, succeeds allocates (by simpa [Buffer.empty] using room)]
      at broken
    cases broken
  rename_i complete
  simp only [Bool.not_eq_true, Bool.not_eq_false', Bool.and_eq_true]
    at complete
  split
  · rename_i denied
    refine ⟨disk, by simp, ?_⟩
    intro _ _ _ below _
    omega
  split
  · exact ⟨disk, fun _ => data complete.2, fun _ _ _ _ _ => rfl⟩
  · rename_i unexpected
    refine ⟨disk, by simp, ?_⟩
    intro _ _ atLeast below _
    exact absurd ⟨atLeast, below⟩ unexpected

/-- The bytes of the request for a session. -/
def Request.body (q : Request) (nonce license : Bytes) (now : Int64) : Bytes :=
  RequestFields.layout ⟨now, nonce, q.productId.getD [], q.channel.getD [],
    q.loaderVersion.getD [], q.installationId.getD [], license⟩

/-- The exchange in which an acquisition asks for its session. -/
def Inputs.asked (inputs : Inputs) (q : Request) (license : Bytes) :
    Exchange :=
  sessionExchange q (q.body inputs.nonce license inputs.requestTime)

/-- The body of the session response. -/
def Inputs.response (inputs : Inputs) (q : Request) (license : Bytes) :
    Bytes :=
  (inputs.session (inputs.asked q license)).chunks.flatten

private theorem encodeRequest_wp {q : Request} {nonce license : Bytes}
    {now : Int64} (admitted : requestTextsOk q = true)
    (nonempty : license ≠ []) (short : license.length ≤ 4096)
    (before : World) :
    Program.wp (alone self allowed)
      ((encodeRequest q nonce license now).run (.empty 8192))
      (fun outcome after => after.disk = before.disk ∧
        (outcome.1 = true → outcome.2.data = q.body nonce license now) ∧
        (Allocates allowed → 0 ≤ now →
          (q.body nonce license now).length ≤ 8192 → outcome.1 = true))
      before := by
  by_cases epoch : 0 ≤ now
  · obtain ⟨product, channel, loader, installation, texts⟩ :=
      exists_texts admitted
    have body : q.body nonce license now = RequestFields.layout ⟨now, nonce,
        product, channel, loader, installation, license⟩ := by
      rw [Request.body, texts.productId, texts.channelId, texts.loaderVersion,
        texts.installationId]
      rfl
    have bounded : (Buffer.empty 8192).Bounded :=
      ⟨Nat.zero_le _, by decide⟩
    refine Program.wp_mono (encodeRequest_fills texts epoch nonempty short _
      bounded before) ?_
    rintro outcome after ⟨disk, -, -, data, succeeds⟩
    rw [body]
    refine ⟨disk, data, fun allocates _ fits => succeeds allocates ?_⟩
    simpa [Buffer.empty] using fits
  · rw [encodeRequest, if_pos epoch]
    exact ⟨rfl, by simp, fun _ positive => absurd positive epoch⟩

/-- What `rymga_loader_acquire` has checked when it starts the download. -/
structure Accepted (sodium : Sodium) (q : Request) (keys : List PublicKey)
    (inputs : Inputs) (response : Bytes) (m : Manifest) (key : PublicKey) :
    Prop where
  parsed : parseManifest response = some m
  nonce : inputs.nonce = m.nonce
  product : q.productId = some m.product
  channel : q.channel = some m.channel
  trusted : findKey keys m.keyId = some key
  fresh : outsideWindow m inputs.checkTime = false
  signed : sodium.verifyDetached m.signature (response.take m.signedLength)
    key.publicKey = true

/-- Servers that answer the session request and deliver what they promised,
within the sizes the buffers allow. -/
structure Served (sodium : Sodium) (q : Request) (keys : List PublicKey)
    (license : Bytes) (inputs : Inputs) (pid : Nat) : Prop where
  epoch : 0 ≤ inputs.requestTime
  body : (q.body inputs.nonce license inputs.requestTime).length ≤ 8192
  url : (inputs.asked q license).url.length < pathMax
  transferred : (inputs.session (inputs.asked q license)).transferred = true
  status : 200 ≤ (inputs.session (inputs.asked q license)).status ∧
    (inputs.session (inputs.asked q license)).status < 300
  length : (inputs.response q license).length ≤ 4096
  accepted : ∃ m key, Accepted sodium q keys inputs (inputs.response q license)
    m key ∧ PathsFit q m pid ∧ DeliversPromised sodium m (inputs.artifact
      (artifactExchange q (inputs.response q license)))

/-- What `openSession` returns and leaves behind. -/
structure SessionAttempt (owner : Process)
    (allowed : (call : Call) → World → Answer call → Prop) (sodium : Sodium)
    (q : Request) (keys : List PublicKey) (license : Bytes) (inputs : Inputs)
    (pid : Nat) (base : Disk) (outcome : Result × Option Artifact)
    (after : World) : Prop where
  published : outcome.1 = .ok → ∃ m key name,
    Accepted sodium q keys inputs (inputs.response q license) m key ∧
    tempName name = true ∧ base.root.lookup name = none ∧
    MarkerFits q.runtimeDirectory name ∧
    outcome.2 = some ⟨some name, some (name, m.filename)⟩ ∧
    Published owner sodium pid m base name after.disk
  failed : outcome.1 ≠ .ok → outcome.2 = none ∧
    (Ensures allowed deletionsSucceed → Settled base after.disk)
  succeeds : Ensures allowed callsSucceed →
    Served sodium q keys license inputs pid → outcome.1 = .ok

theorem filename_ne_of_parsed {bytes : Bytes} {m : Manifest}
    (parsed : parseManifest bytes = some m) {hidden : Name}
    (dotted : hidden.head? = some 0x2E) : m.filename ≠ hidden := by
  obtain ⟨fields, valid, -, rfl⟩ := parseManifest_eq_some_iff.mp parsed
  intro same
  apply valid.originalFilename.2.visible
  have name : fields.originalFilename = hidden := same
  rw [List.head?_map, name, dotted]
  rfl

variable {sodium : Sodium} {q : Request} {keys : List PublicKey}
  {license : Bytes} {inputs : Inputs} {pid : Nat} {base : Disk}

/-- Leaving before the download. -/
private theorem SessionAttempt.refuse {result : Result} {after : World}
    (failed : result ≠ .ok) (same : after.disk = base)
    (fails : Ensures allowed callsSucceed →
      ¬Served sodium q keys license inputs pid) :
    SessionAttempt self allowed sodium q keys license inputs pid base
      (result, none) after where
  published ok := absurd ok failed
  failed _ := ⟨rfl, fun _ => same ▸ Settled.refl _⟩
  succeeds ensures served := absurd served (fails ensures)

theorem Ensures.allocates (ensures : Ensures allowed callsSucceed) :
    Allocates allowed := fun world answer permitted =>
  ensures .allocate world answer permitted

/-- The part of `openSession` after the response has arrived. -/
private theorem judge_wp (before : World) :
    Program.wp (alone self allowed)
      (match parseManifest (inputs.response q license) with
      | none => pure (.protocolError, none)
      | some m =>
          if inputs.nonce ≠ m.nonce ∨ q.productId ≠ some m.product ∨
              q.channel ≠ some m.channel then
            pure (.protocolError, none)
          else match findKey keys m.keyId with
          | none => pure (.signatureError, none)
          | some key =>
              if outsideWindow m inputs.checkTime ∨
                  !sodium.verifyDetached m.signature
                    ((inputs.response q license).take m.signedLength)
                    key.publicKey then
                pure (.signatureError, none)
              else downloadArtifact sodium q m (inputs.response q license)
                inputs.artifact)
      (SessionAttempt self allowed sodium q keys license inputs
        (before.pidOf self) before.disk) before := by
  have refused : ∀ {result : Result}, result ≠ .ok →
      (∀ m key, ¬Accepted sodium q keys inputs (inputs.response q license) m
        key) →
      SessionAttempt self allowed sodium q keys license inputs
        (before.pidOf self) before.disk (result, none) before := by
    intro result failed never
    refine SessionAttempt.refuse failed rfl fun _ served => ?_
    obtain ⟨m, key, accepted, -⟩ := served.accepted
    exact never m key accepted
  cases parsed : parseManifest (inputs.response q license) with
  | none =>
      refine refused (by simp) fun m key accepted => ?_
      rw [accepted.parsed] at parsed
      cases parsed
  | some m =>
      have same : ∀ {other key}, Accepted sodium q keys inputs
          (inputs.response q license) other key → other = m := by
        intro other key accepted
        rw [accepted.parsed] at parsed
        exact Option.some.inj parsed
      dsimp only
      split
      · rename_i mismatch
        refine refused (by simp) fun other key accepted => ?_
        obtain rfl := same accepted
        simp [accepted.nonce, accepted.product, accepted.channel] at mismatch
      rename_i matching
      simp only [not_or, not_not] at matching
      cases found : findKey keys m.keyId with
      | none =>
          refine refused (by simp) fun other key accepted => ?_
          obtain rfl := same accepted
          rw [accepted.trusted] at found
          cases found
      | some key =>
          dsimp only
          split
          · rename_i invalid
            refine refused (by simp) fun other candidate accepted => ?_
            obtain rfl := same accepted
            rw [accepted.trusted] at found
            cases found
            simp [accepted.fresh, accepted.signed] at invalid
          rename_i valid
          simp only [not_or, Bool.not_eq_true, Bool.not_eq_false'] at valid
          have accepted : Accepted sodium q keys inputs
              (inputs.response q license) m key :=
            ⟨parsed, matching.1, matching.2.1, matching.2.2, found, valid.1,
              valid.2⟩
          refine Program.wp_mono (downloadArtifact_wp
            (filename_ne_of_parsed parsed rfl)) ?_
          rintro outcome after ⟨published, failed, succeeds⟩
          refine ⟨fun ok => ?_, failed, fun ensures served => ?_⟩
          · obtain ⟨name, temp, absent, fits, handle, stored⟩ := published ok
            exact ⟨m, key, name, accepted, temp, absent, fits, handle, stored⟩
          · obtain ⟨other, candidate, also, fit, delivers⟩ := served.accepted
            obtain rfl := same also
            exact succeeds ensures fit delivers

theorem openSession_wp (admitted : requestTextsOk q = true)
    (nonempty : license ≠ []) (short : license.length ≤ 4096)
    (before : World) :
    Program.wp (alone self allowed)
      (openSession sodium q keys license inputs)
      (SessionAttempt self allowed sodium q keys license inputs
        (before.pidOf self) before.disk) before := by
  unfold openSession
  simp only [Program.perform_bind]
  intro ready afterSetup answeredSetup
  obtain ⟨diskSetup, pidSetup⟩ := quiet_step rfl answeredSetup
  cases ready with
  | false =>
      refine SessionAttempt.refuse (by simp) diskSetup fun ensures => ?_
      exact absurd (ensures _ _ _ answeredSetup.2) (by simp [callsSucceed])
  | true =>
  simp only [Bool.not_true, Bool.false_eq_true, if_false]
  rw [Program.wp_bind]
  refine Program.wp_mono (Program.wp_and (encodeRequest_wp admitted nonempty
    short afterSetup) (wp_pidOf _ _)) ?_
  rintro ⟨encoded, request⟩ afterEncode ⟨⟨diskEncode, data, encodes⟩,
    pidEncode⟩
  dsimp only at data encodes ⊢
  split
  · rename_i refused
    refine SessionAttempt.refuse (by simp) (diskEncode.trans diskSetup) ?_
    intro ensures served
    have done := encodes ensures.allocates served.epoch served.body
    rw [done, data done] at refused
    have url := served.url
    rw [Inputs.asked] at url
    rcases refused with impossible | tooLong
    · cases impossible
    · omega
  rename_i sendable
  rw [not_or, Bool.not_eq_true, Bool.not_eq_false'] at sendable
  rw [data sendable.1]
  intro opened afterOpen answeredOpen
  obtain ⟨diskOpen, pidOpen⟩ := quiet_step rfl answeredOpen
  cases opened with
  | false =>
      refine SessionAttempt.refuse (by simp) (diskOpen.trans (diskEncode.trans
        diskSetup)) fun ensures => ?_
      exact absurd (ensures _ _ _ answeredOpen.2) (by simp [callsSucceed])
  | true =>
  intro listed afterList answeredList
  obtain ⟨diskList, pidList⟩ := quiet_step rfl answeredList
  cases listed with
  | false =>
      refine SessionAttempt.refuse (by simp) (diskList.trans (diskOpen.trans
        (diskEncode.trans diskSetup))) fun ensures => ?_
      exact absurd (ensures _ _ _ answeredList.2) (by simp [callsSucceed])
  | true =>
  simp only [Bool.not_true, Bool.false_eq_true, if_false]
  rw [Program.wp_bind]
  refine Program.wp_mono (Program.wp_and (perform_wp (by decide) _ afterList)
    (wp_pidOf _ _)) ?_
  rintro ⟨result, response⟩ performed ⟨⟨diskPerform, received, performs⟩,
    pidPerform⟩
  have disk : performed.disk = before.disk := diskPerform.trans
    (diskList.trans (diskOpen.trans (diskEncode.trans diskSetup)))
  have pid : performed.pidOf self = before.pidOf self := by
    rw [pidPerform, pidList, pidOpen, pidEncode, pidSetup]
  dsimp only at received performs ⊢
  split
  · rename_i failed
    refine SessionAttempt.refuse failed disk fun ensures served => ?_
    exact absurd (performs ensures.allocates served.transferred served.status.1
      served.status.2 served.length) failed
  · rename_i ok
    rw [received (not_not.mp ok), ← disk, ← pid]
    exact judge_wp performed

private theorem ensurePrivateDirectory_wp (before : World) :
    Program.wp (alone self allowed) ensurePrivateDirectory
      (fun usable after => after.disk = before.disk ∧
        after.pidOf = before.pidOf ∧
        (Ensures allowed callsSucceed → usable = true)) before := by
  simp only [ensurePrivateDirectory, Program.perform_bind]
  intro made between answered
  obtain ⟨disk, pids⟩ := quiet_step rfl answered
  cases made with
  | false =>
      refine ⟨disk, pids, fun ensures => ?_⟩
      exact absurd (ensures _ _ _ answered.2) (by simp [callsSucceed])
  | true =>
      intro ok after answered'
      obtain ⟨disk', pids'⟩ := quiet_step rfl answered'
      exact ⟨disk'.trans disk, pids'.trans pids, fun ensures =>
        ensures _ _ _ answered'.2⟩

/-- The arguments pass every check of `rymga_loader_acquire`. -/
structure Admitted (q : Request) (license : Option Bytes) : Prop where
  texts : requestTextsOk q = true
  limits : requestLimitsOk q license = true
  keys : trustedKeysOk [] (q.trustedKeys.getD []) = true

theorem requestLimitsOk_cases {license : Option Bytes}
    (within : requestLimitsOk q license = true) :
    ∃ keys text, q.trustedKeys = some keys ∧ license = some text ∧
      text ≠ [] ∧ text.length ≤ 4096 := by
  unfold requestLimitsOk at within
  split at within
  · rename_i keys text someKeys
    simp only [Bool.and_eq_true, decide_eq_true_eq] at within
    obtain ⟨⟨-, nonempty⟩, short⟩ := within
    refine ⟨keys, text, someKeys, rfl, ?_, short⟩
    rintro rfl
    exact nonempty rfl
  · cases within

/-- An acquisition refuses its arguments without touching the disk, or cleans
up and opens a session. -/
theorem acquire_cases {request : Option Request} {license : Option Bytes}
    {before after : World} {outcome : Result × Option Artifact}
    (run : Program.Runs (alone self allowed)
      (acquire sodium request license inputs) before outcome after) :
    (outcome = (.invalidArgument, none) ∧ after.disk = before.disk ∧
        (Ensures allowed callsSucceed →
          ∀ q, request = some q → ¬Admitted q license)) ∨
      ∃ q keys text started cleaned, request = some q ∧
        q.trustedKeys = some keys ∧ license = some text ∧
        requestTextsOk q = true ∧ text ≠ [] ∧ text.length ≤ 4096 ∧
        trustedKeysOk [] keys = true ∧ started.disk = before.disk ∧
        started.pidOf = before.pidOf ∧
        Program.Runs (alone self allowed) (cleanupStale 86400) started ()
          cleaned ∧
        Program.Runs (alone self allowed)
          (openSession sodium q keys text inputs) cleaned outcome after := by
  cases request with
  | none =>
      obtain ⟨rfl, rfl⟩ := run
      exact Or.inl ⟨rfl, rfl, fun _ _ absent => by cases absent⟩
  | some q =>
      simp only [acquire, Program.perform_bind] at run
      split at run
      · rename_i texts
        obtain ⟨rfl, rfl⟩ := run
        refine Or.inl ⟨rfl, rfl, ?_⟩
        rintro - _ ⟨⟩ admitted
        rw [admitted.texts] at texts
        cases texts
      rename_i texts
      obtain ⟨usable, checked, ensured, run⟩ := Program.Runs.bind_iff.mp run
      obtain ⟨diskChecked, pidChecked, succeeds⟩ := Program.wp_iff_runs.mp
        (ensurePrivateDirectory_wp before) usable checked ensured
      split at run
      · rename_i unusable
        obtain ⟨rfl, rfl⟩ := run
        refine Or.inl ⟨rfl, diskChecked, fun ensures => ?_⟩
        rw [succeeds ensures] at unusable
        cases unusable
      split at run
      · rename_i limits
        obtain ⟨rfl, rfl⟩ := run
        refine Or.inl ⟨rfl, diskChecked, ?_⟩
        rintro - _ ⟨⟩ admitted
        rw [admitted.limits] at limits
        cases limits
      rename_i limits
      obtain ⟨initialized, started, answered, run⟩ := run
      obtain ⟨diskStarted, pidStarted⟩ := quiet_step rfl answered
      have disk := diskStarted.trans diskChecked
      have pids := pidStarted.trans pidChecked
      dsimp only at run
      split at run
      · rename_i uninitialized
        obtain ⟨rfl, rfl⟩ := run
        refine Or.inl ⟨rfl, disk, fun ensures => ?_⟩
        have ready : initialized = true := ensures _ _ _ answered.2
        rw [ready] at uninitialized
        cases uninitialized
      split at run
      · rename_i untrusted
        obtain ⟨rfl, rfl⟩ := run
        refine Or.inl ⟨rfl, disk, ?_⟩
        rintro - _ ⟨⟩ admitted
        rw [admitted.keys] at untrusted
        cases untrusted
      rename_i trusted
      obtain ⟨_, cleaned, cleanup, session⟩ := Program.Runs.bind_iff.mp run
      simp only [Bool.not_eq_true', Bool.not_eq_false] at texts limits trusted
      obtain ⟨keys, text, someKeys, rfl, nonempty, short⟩ :=
        requestLimitsOk_cases limits
      rw [someKeys] at trusted session
      exact Or.inr ⟨q, keys, text, started, cleaned, rfl, someKeys, rfl, texts,
        nonempty, short, trusted, disk, pids, cleanup, session⟩

/-- Where no call fails, an admitted request that is served succeeds. -/
theorem acquire_succeeds {text : Bytes} {before after : World}
    {outcome : Result × Option Artifact}
    (ensures : Ensures allowed callsSucceed)
    (admitted : Admitted q (some text))
    (served : ∀ keys, q.trustedKeys = some keys →
      Served sodium q keys text inputs (before.pidOf self))
    (run : Program.Runs (alone self allowed)
      (acquire sodium (some q) (some text) inputs) before outcome after) :
    outcome.1 = .ok := by
  rcases acquire_cases run with ⟨-, -, refused⟩ | ⟨q, keys, text, started,
    cleaned, ⟨⟩, someKeys, ⟨⟩, texts, nonempty, short, -, -, pids, cleanup,
    session⟩
  · exact absurd admitted (refused ensures q rfl)
  · have pid : cleaned.pidOf self = before.pidOf self := by
      rw [Program.wp_iff_runs.mp (wp_pidOf _ started) _ _ cleanup, pids]
    obtain ⟨-, -, succeeds⟩ := Program.wp_iff_runs.mp
      (openSession_wp texts nonempty short cleaned) _ _ session
    rw [pid] at succeeds
    exact succeeds ensures (served keys someKeys)

private theorem pairwise_of_trustedKeysOk {previous keys : List PublicKey}
    (trusted : trustedKeysOk previous keys = true) :
    (∀ key ∈ keys, ∀ earlier ∈ previous, earlier.keyId ≠ key.keyId) ∧
      keys.Pairwise fun earlier key => earlier.keyId ≠ key.keyId := by
  induction keys generalizing previous with
  | nil => exact ⟨by simp, .nil⟩
  | cons key keys ih =>
      simp only [trustedKeysOk, Bool.and_eq_true, List.all_eq_true,
        decide_eq_true_eq] at trusted
      obtain ⟨⟨-, distinct⟩, rest⟩ := trusted
      obtain ⟨apart, pairwise⟩ := ih rest
      refine ⟨?_, .cons ?_ pairwise⟩
      · intro candidate member earlier old
        rcases List.mem_cons.mp member with rfl | later
        · exact distinct earlier old
        · exact apart candidate later earlier (List.mem_append_left _ old)
      · intro candidate later
        exact apart candidate later key (by simp)

/-- The key found is the only one with its identifier. -/
theorem filter_eq_of_findKey {keyId : Bytes} {key : PublicKey}
    (trusted : trustedKeysOk [] keys = true)
    (found : findKey keys keyId = some key) :
    keys.filter (fun candidate => candidate.keyId = some keyId) = [key] := by
  obtain ⟨-, pairwise⟩ := pairwise_of_trustedKeysOk trusted
  clear trusted
  induction keys with
  | nil => cases found
  | cons head keys ih =>
      obtain ⟨apart, rest⟩ := List.pairwise_cons.mp pairwise
      by_cases chosen : head.keyId = some keyId
      · rw [findKey, List.find?_cons_of_pos (by simpa using chosen)] at found
        cases found
        rw [List.filter_cons_of_pos (by simpa using chosen),
          List.filter_eq_nil_iff.mpr]
        intro candidate member same
        have chosenToo : candidate.keyId = some keyId := by simpa using same
        exact apart candidate member (chosen.trans chosenToo.symm)
      · rw [findKey, List.find?_cons_of_neg (by simpa using chosen)] at found
        rw [List.filter_cons_of_neg (by simpa using chosen)]
        exact ih found rest

theorem findKey_of_mem {keyId : Bytes} {key : PublicKey}
    (trusted : trustedKeysOk [] keys = true) (member : key ∈ keys)
    (named : key.keyId = some keyId) : findKey keys keyId = some key := by
  cases found : findKey keys keyId with
  | none =>
      have never := List.find?_eq_none.mp found key member
      simp [named] at never
  | some other =>
      have only := filter_eq_of_findKey trusted found
      have listed : key ∈ keys.filter
          (fun candidate => candidate.keyId = some keyId) :=
        List.mem_filter.mpr ⟨member, by simpa using named⟩
      rw [only, List.mem_singleton] at listed
      rw [listed]

/-- Neither subtraction of the freshness test leaves the range of its type. -/
theorem toInt_sub_of_nonneg {left right : Int64} (low : 0 ≤ right)
    (less : right < left) :
    (left - right).toInt = left.toInt - right.toInt := by
  have lowInt : 0 ≤ right.toInt := by
    simpa [Int64.le_iff_toInt_le] using low
  have lessInt : right.toInt < left.toInt := Int64.lt_iff_toInt_lt.mp less
  have upper := left.toInt_lt
  rw [Int64.toInt_sub]
  apply Int.bmod_eq_of_le <;> omega

theorem outsideWindow_eq_false_iff {m : Manifest} {now : Int64}
    (expires : 0 ≤ m.expiresAt) (clock : 0 ≤ now) :
    outsideWindow m now = false ↔
      m.issuedAt.toInt ≤ now.toInt + 120 ∧
        now.toInt ≤ m.expiresAt.toInt + 120 := by
  have skew : clockSkewSeconds.toInt = 120 := rfl
  have side : ∀ left right : Int64, 0 ≤ right →
      ((decide (left > right) && decide (left - right > clockSkewSeconds)) =
        false ↔ left.toInt ≤ right.toInt + 120) := by
    intro left right low
    simp only [Bool.and_eq_false_iff, decide_eq_false_iff_not, gt_iff_lt]
    by_cases less : right < left
    · have difference := toInt_sub_of_nonneg low less
      have excess : clockSkewSeconds < left - right ↔
          120 < left.toInt - right.toInt := by
        rw [Int64.lt_iff_toInt_lt, difference, skew]
      simp only [less, not_true_eq_false, false_or, excess]
      omega
    · simp only [less, not_false_eq_true, true_or, true_iff]
      rw [Int64.lt_iff_toInt_lt] at less
      omega
  rw [outsideWindow, Bool.or_eq_false_iff, side _ _ clock, side _ _ expires]

end

end RymgaLoader.Native
