import RymgaLoader.Native.Acquisition

/-!
# What an acquisition guarantees

The two promises of `rymga_loader_acquire` to its caller: a returned artifact
is the one a trusted server signed for this very call, and the runtime
directory is changed completely or not at all.
-/

namespace RymgaLoader.Native

open Disk Protocol

/-- Any outcome the operating system may give. -/
def anyOutcome (call : Call) (_ : World) (_ : Answer call) : Prop := True

/-- The first name `mkdtemp` may try. -/
def firstTemp : Name := tempStem ++ List.replicate 6 0x61

/-- The first name `mkstemp` may try. -/
def firstPartial : Name := partialStem ++ List.replicate 6 0x61

/-- The answer of a machine on which everything possible succeeds. -/
def World.obliging (world : World) (self : Process) :
    (call : Call) → Answer call
  | .allocate | .setup | .directoryOk | .makeDirectory | .openRoot |
    .duplicate | .chmod | .openInput | .fsync _ | .close => true
  | .duplicatePaths => (true, true)
  | .time => world.clock
  | .getpid => world.pidOf self
  | .kill pid => if world.hasPid pid then .delivered else .noSuchProcess
  | .openProcess pid => if world.hasPid pid then .opened else .failed
  | .exitCode _ => some stillActive
  | .random count => List.replicate count 0
  | .mkdtemp => some firstTemp
  | .mkstemp => some (firstPartial,
      ⟨world.disk.nextFile, world.disk.nextFile + 1⟩)
  | .createDirectory name =>
      if world.disk.root.lookup name = none then .created else .occupied
  | .openExcl _ => .opened ⟨world.disk.nextFile, world.disk.nextFile + 1⟩
  | .readInput _ rest => .completed (rest.take 32768)
  | .writeOutput _ _ bytes => .completed bytes.length
  | .write _ bytes => some bytes.length
  | .unlink place => (world.disk.lookup place).isSome
  | .rename _ _ _ => true
  | .rmdir name | .rmdirAt name => (world.removeEmptyDirectory name).isSome
  | .openDirectory name => world.disk.openDirectory name
  | .statDirectory id => some (world.disk.directories id).mode
  | .openRead place => world.disk.openFile place
  | .read ref count => some ((world.disk.files ref).content.take count)
  | .fstat ref => some (world.disk.statFile ref)
  | .fstatat place => world.disk.stat place
  | .scan directory => some (world.disk.names directory)
  | .link source _ => (world.disk.lookup (.top source)).isSome
  | .endScan _ | .note _ => ()

/-- The machine that gives the obliging answer. -/
def machine (self : Process) (call : Call) (world : World) :
    Option (Answer call × World) :=
  (world.exec self call (world.obliging self call)).map
    (world.obliging self call, ·)

theorem alone_of_machine {self : Process}
    {allowed : (call : Call) → World → Answer call → Prop}
    (granted : ∀ call world, allowed call world (world.obliging self call))
    (call : Call) (before : World) (answer : Answer call) (after : World)
    (answered : machine self call before = some (answer, after)) :
    alone self allowed call before answer after := by
  obtain ⟨world, done, same⟩ := Option.map_eq_some_iff.mp answered
  cases same
  exact ⟨done, granted call before⟩

theorem deletionsSucceed_obliging (self : Process) (call : Call)
    (world : World) :
    deletionsSucceed call world (world.obliging self call) := by
  cases call
  all_goals first
    | trivial
    | (intro failed
       simpa [World.obliging] using failed)

theorem callsSucceed_obliging (self : Process) (call : Call) (world : World) :
    callsSucceed call world (world.obliging self call) := by
  cases call
  case openExcl place => exact ⟨_, rfl⟩
  case write ref bytes =>
    intro nonempty
    cases bytes with
    | nil => exact absurd rfl nonempty
    | cons byte bytes => exact ⟨bytes.length, rfl⟩
  all_goals trivial

/-- What the caller of a successful acquisition may rely on. -/
structure Guaranteed (sodium : Sodium) (q : Request) (license : Bytes)
    (inputs : Inputs) (artifact : Option Artifact) (disk : Disk)
    (m : Manifest) (key : PublicKey) : Prop where
  parsed : parseManifest (inputs.response q license) = some m
  nonce : m.nonce = inputs.nonce
  product : q.productId = some m.product
  channel : q.channel = some m.channel
  trusted : (q.trustedKeys.getD []).filter
    (fun candidate => candidate.keyId = some m.keyId) = [key]
  signature : inputs.response q license =
    (inputs.response q license).take
      ((inputs.response q license).length - ed25519SignatureBytes) ++
        m.signature ∧ m.signature.length = ed25519SignatureBytes
  signed : sodium.verifyDetached m.signature
    ((inputs.response q license).take
      ((inputs.response q license).length - ed25519SignatureBytes))
    key.publicKey = true
  issued : m.issuedAt.toInt ≤ inputs.checkTime.toInt + 120
  expires : inputs.checkTime.toInt ≤ m.expiresAt.toInt + 120
  noOverflow : (inputs.checkTime < m.issuedAt →
      (m.issuedAt - inputs.checkTime).toInt =
        m.issuedAt.toInt - inputs.checkTime.toInt) ∧
    (m.expiresAt < inputs.checkTime →
      (inputs.checkTime - m.expiresAt).toInt =
        inputs.checkTime.toInt - m.expiresAt.toInt)
  stored : ∃ name file, artifact = some ⟨some name, some (name, m.filename)⟩ ∧
    disk.lookup (.path name m.filename) = some file ∧
    ((disk.files file).content.length : Int) = m.artifactSize.toInt ∧
    sodium.sha256 (disk.files file).content = m.hash

private theorem signed_split {bytes : Bytes} {m : Manifest}
    (parsed : parseManifest bytes = some m) :
    m.signedLength = bytes.length - ed25519SignatureBytes ∧
      bytes = bytes.take m.signedLength ++ m.signature ∧
      m.signature.length = ed25519SignatureBytes ∧ 0 ≤ m.expiresAt := by
  obtain ⟨fields, valid, rfl, rfl⟩ := parseManifest_eq_some_iff.mp parsed
  have length : fields.signature.length = ed25519SignatureBytes :=
    valid.signature
  refine ⟨?_, ?_, length, ?_⟩
  · simp [ManifestFields.layout, Manifest.ofFields, length]
  · simp [ManifestFields.layout, Manifest.ofFields]
  · exact Int64.le_trans valid.issuedAt (Int64.le_of_lt valid.expiresAt)

theorem guaranteed_of_accepted {self : Process} {pid : Nat}
    {sodium : Sodium} {q : Request} {keys : List PublicKey} {license : Bytes}
    {inputs : Inputs} {m : Manifest} {key : PublicKey} {base disk : Disk}
    {name : Name} (clock : 0 ≤ inputs.checkTime)
    (someKeys : q.trustedKeys = some keys)
    (trusted : trustedKeysOk [] keys = true)
    (accepted : Accepted sodium q keys inputs (inputs.response q license) m
      key)
    (published : Published self sodium pid m base name disk) :
    Guaranteed sodium q license inputs
      (some ⟨some name, some (name, m.filename)⟩) disk m key := by
  obtain ⟨length, split, signature, expires⟩ := signed_split accepted.parsed
  have window := (outsideWindow_eq_false_iff expires clock).mp accepted.fresh
  obtain ⟨marker, file, content, -, stored, promised, holding⟩ := published
  have signed := accepted.signed
  rw [length] at split signed
  refine ⟨accepted.parsed, accepted.nonce.symm, accepted.product,
    accepted.channel, ?_, ⟨split, signature⟩, signed, window.1, window.2,
    ⟨toInt_sub_of_nonneg clock, toInt_sub_of_nonneg expires⟩, name, file, rfl,
    ?_, ?_, ?_⟩
  · rw [someKeys]
    exact filter_eq_of_findKey trusted accepted.trusted
  · rw [holding.lookup_path, alongside, Function.update_self]
  · rw [stored]
    exact promised.1
  · rw [stored]
    exact promised.2

/-- Whatever the servers, the clock, the operating system and the allocator
do, an acquisition that reports success returns the artifact that a trusted
key signed for this call, and any other acquisition returns nothing. -/
theorem acquire_failClosed (self : Process) (sodium : Sodium)
    (request : Option Request) (license : Option Bytes) (inputs : Inputs)
    (before after : World) (result : Result) (artifact : Option Artifact)
    (clock : 0 ≤ inputs.checkTime)
    (run : Program.Runs (alone self anyOutcome)
      (acquire sodium request license inputs) before (result, artifact)
      after) :
    (result = .ok → ∃ q text m key, request = some q ∧ license = some text ∧
      Guaranteed sodium q text inputs artifact after.disk m key) ∧
      (result ≠ .ok → artifact = none) := by
  rcases acquire_cases run with ⟨refused, -, -⟩ | ⟨q, keys, text, started, cleaned,
    rfl, someKeys, rfl, texts, nonempty, short, trusted, -, -, -, session⟩
  · cases refused
    exact ⟨by simp, fun _ => rfl⟩
  · obtain ⟨published, failed, -⟩ := Program.wp_iff_runs.mp
      (openSession_wp texts nonempty short cleaned) _ _ session
    refine ⟨fun ok => ?_, fun notOk => (failed notOk).1⟩
    obtain ⟨m, key, name, accepted, -, -, -, handle, stored⟩ := published ok
    change artifact = _ at handle
    subst handle
    exact ⟨q, text, m, key, rfl, rfl,
      guaranteed_of_accepted clock someKeys trusted accepted stored⟩

/-- A manifest with short fields, for the request below. -/
def smallManifest : ManifestFields where
  keyId := [0x6B]
  requestNonce := List.replicate 32 7
  sessionId := List.replicate 32 9
  issuedAt := 100
  expiresAt := 200
  productId := [0x70]
  channel := [0x63]
  artifactId := [0x61]
  originalFilename := ascii "a.jar".toList
  artifactSize := 3
  artifactSha256 := List.replicate 32 1
  signature := List.replicate 64 2

/-- Servers that deliver the manifest in two chunks and three bytes of
artifact in one. -/
def smallInputs : Inputs where
  nonce := List.replicate 32 7
  requestTime := 150
  checkTime := 150
  session _ := ⟨[smallManifest.layout.take 10, smallManifest.layout.drop 10],
    true, 200⟩
  artifact _ := ⟨[[1, 2, 3]], true, 200⟩

/-- Hashing and signatures that accept the small manifest. -/
def smallSodium : Sodium where
  sha256 _ := List.replicate 32 1
  verifyDetached _ _ _ := true

theorem follow_small : ∃ after,
    Program.follow (machine 0)
      (acquire smallSodium (some smallRequest) (some [0x6C]) smallInputs)
      World.initial = some ((.ok, some ⟨some firstTemp,
        some (firstTemp, ascii "a.jar".toList)⟩), after) := by
  have outcome : (Program.follow (machine 0)
      (acquire smallSodium (some smallRequest) (some [0x6C]) smallInputs)
      World.initial).map (·.1) = some (.ok, some ⟨some firstTemp,
        some (firstTemp, ascii "a.jar".toList)⟩) := by
    decide +kernel
  obtain ⟨⟨value, after⟩, followed, rfl⟩ := Option.map_eq_some_iff.mp outcome
  exact ⟨after, followed⟩

theorem acquire_failClosed_small : ∃ artifact after,
    Program.Runs (alone 0 anyOutcome)
      (acquire smallSodium (some smallRequest) (some [0x6C]) smallInputs)
      World.initial (.ok, artifact) after ∧
    ∃ q text m key, some smallRequest = some q ∧ some [0x6C] = some text ∧
      Guaranteed smallSodium q text smallInputs artifact after.disk m key := by
  obtain ⟨after, followed⟩ := follow_small
  have run : Program.Runs (alone 0 anyOutcome) _ _ _ _ :=
    Program.runs_of_follow (alone_of_machine fun _ _ => trivial) followed
  exact ⟨_, after, run, (acquire_failClosed 0 smallSodium (some smallRequest)
    (some [0x6C]) smallInputs World.initial after .ok _ (by decide) run).1 rfl⟩

/-- `after` has one directory more than `before`: `name`, with a complete
owner marker and the promised artifact in it. -/
def AddsArtifact (sodium : Sodium) (pid : Nat) (m : Manifest) (name : Name)
    (before after : Disk) : Prop :=
  before.contents name = none ∧ ∃ (created : Int64) (content : Bytes),
    Promised sodium m content ∧
    after.contents = Function.update before.contents name
      (some (.directory .privateDirectory fun file =>
        if file = m.filename then some (content, .privateFile)
        else if file = ownerMarker then
          some (ownerText pid created name, .privateFile)
        else none))

theorem addsArtifact_of_published {self : Process} {pid : Nat}
    {sodium : Sodium} {m : Manifest} {base disk : Disk} {name : Name}
    (wellFormed : base.WellFormed) (absent : base.root.lookup name = none)
    (published : Published self sodium pid m base name disk) :
    AddsArtifact sodium pid m name base disk := by
  obtain ⟨marker, file, content, ⟨created, -, text⟩, stored, promised,
    holding⟩ := published
  refine ⟨by rw [contents, absent]; rfl, created, content, promised, ?_⟩
  rw [holding.contents_eq wellFormed]
  congr 3
  funext candidate
  by_cases jar : candidate = m.filename
  · rw [if_pos jar, jar, alongside, Function.update_self, Option.map_some,
      view, stored]
  rw [if_neg jar]
  by_cases owner : candidate = ownerMarker
  · rw [if_pos owner, owner, alongside, Function.update_of_ne (owner ▸ jar),
      markerOnly, Function.update_self, Option.map_some, view, text]
  · rw [if_neg owner, alongside_of_ne owner jar]
    rfl

/-- Where deletions succeed and nobody else touches the runtime directory, an
acquisition that fails leaves the contents as the initial cleanup left them;
one that succeeds adds one directory, which a release removes again. -/
theorem acquire_atomic (self : Process) (sodium : Sodium)
    (request : Option Request) (license : Option Bytes) (inputs : Inputs)
    (before after : World) (result : Result) (artifact : Option Artifact)
    (wellFormed : before.disk.WellFormed)
    (run : Program.Runs (alone self deletionsSucceed)
      (acquire sodium request license inputs) before (result, artifact)
      after) :
    (result = .invalidArgument ∧ artifact = none ∧
        after.disk.contents = before.disk.contents) ∨
      ∃ q keys text started cleaned, request = some q ∧
        q.trustedKeys = some keys ∧ license = some text ∧
        started.disk = before.disk ∧
        Program.Runs (alone self deletionsSucceed) (cleanupStale 86400)
          started () cleaned ∧
        Program.Runs (alone self deletionsSucceed)
          (openSession sodium q keys text inputs) cleaned (result, artifact)
          after ∧
        (result ≠ .ok → artifact = none ∧
          after.disk.contents = cleaned.disk.contents) ∧
        (result = .ok → ∃ m name handle,
          parseManifest (inputs.response q text) = some m ∧
          artifact = some handle ∧
          AddsArtifact sodium (before.pidOf self) m name cleaned.disk
            after.disk ∧
          ∀ released, Program.Runs (alone self deletionsSucceed)
            (artifactRelease q.runtimeDirectory handle) after () released →
              released.disk.contents = cleaned.disk.contents) := by
  have deletes : Ensures deletionsSucceed deletionsSucceed :=
    fun _ _ _ permitted => permitted
  rcases acquire_cases run with ⟨refused, same, -⟩ | ⟨q, keys, text, started,
    cleaned, rfl, someKeys, rfl, texts, nonempty, short, -, disk, pids,
    cleanup, session⟩
  · cases refused
    exact Or.inl ⟨rfl, rfl, by rw [same]⟩
  have sound : cleaned.disk.WellFormed :=
    Program.wp_iff_runs.mp (wp_wellFormed (disk ▸ wellFormed)) _ _ cleanup
  have pid : cleaned.pidOf self = before.pidOf self := by
    rw [Program.wp_iff_runs.mp (wp_pidOf _ started) _ _ cleanup, pids]
  obtain ⟨published, failed, -⟩ := Program.wp_iff_runs.mp
    (openSession_wp texts nonempty short cleaned) _ _ session
  refine Or.inr ⟨q, keys, text, started, cleaned, rfl, someKeys, rfl, disk,
    cleanup, session, ?_, ?_⟩
  · intro notOk
    obtain ⟨nothing, settled⟩ := failed notOk
    exact ⟨nothing, (settled deletes).contents_eq sound⟩
  · intro ok
    obtain ⟨m, key, name, accepted, -, absent, fits, handle, stored⟩ :=
      published ok
    refine ⟨m, name, _, accepted.parsed, handle, ?_, ?_⟩
    · rw [← pid]
      exact addsArtifact_of_published sound absent stored
    · intro released releasing
      exact (Program.wp_iff_runs.mp (artifactRelease_wp deletes fits absent
        stored) _ _ releasing).contents_eq sound

theorem World.initial_wellFormed : World.initial.disk.WellFormed := by
  refine ⟨?_, ?_⟩
  · intro name id found
    cases found
  · intro slot ref linked
    cases slot <;> cases linked

theorem acquire_atomic_small : ∃ artifact after,
    Program.Runs (alone 0 deletionsSucceed)
      (acquire smallSodium (some smallRequest) (some [0x6C]) smallInputs)
      World.initial (.ok, artifact) after ∧
    ∃ q text m name cleaned, AddsArtifact smallSodium 0 m name cleaned
      after.disk ∧ parseManifest (smallInputs.response q text) = some m := by
  obtain ⟨after, followed⟩ := follow_small
  have run : Program.Runs (alone 0 deletionsSucceed) _ _ _ _ :=
    Program.runs_of_follow (alone_of_machine (deletionsSucceed_obliging 0))
      followed
  refine ⟨_, after, run, ?_⟩
  rcases acquire_atomic 0 smallSodium (some smallRequest) (some [0x6C])
    smallInputs World.initial after .ok _ World.initial_wellFormed run with
    ⟨impossible, -⟩ | ⟨q, keys, text, started, cleaned, -, -, -, -, -, -, -,
      succeeds⟩
  · cases impossible
  · obtain ⟨m, name, handle, parsed, -, adds, -⟩ := succeeds rfl
    exact ⟨q, text, m, name, cleaned.disk, adds, parsed⟩

end RymgaLoader.Native
