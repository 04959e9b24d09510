import RymgaLoader.Protocol.SessionManifest
import RymgaLoader.Protocol.SessionRequest

/-!
# Starting the gateway

The limits of `GatewayConfiguration`, the self-check of `SigningKeys` and the
loading of `ArtifactCatalog`.  A running gateway carries the proofs that all
three succeeded.  Key parsing, the file lookup and the file channel belong to
the platform and are given by what they return.
-/

namespace RymgaLoader.Gateway

open Protocol

inductive GatewayException
  | protocol (exception : ProtocolException)
  | illegalArgument (message : String)
  | illegalState (message : String)
  | licenseDenied
  | licenseProviderUnavailable
  | artifactNotFound
  | artifactUnavailable
  deriving DecidableEq, Repr

abbrev Throwing := Except GatewayException

/-- A call into the protocol library. -/
def protocolCall {α : Type} (computation : Checked α) : Throwing α :=
  computation.mapError .protocol

theorem protocolCall_eq_ok_iff {α : Type} {computation : Checked α}
    {value : α} : protocolCall computation = .ok value ↔
      computation = .ok value := by
  cases computation with
  | ok result => simp [protocolCall, Except.mapError]
  | error exception => simp [protocolCall, Except.mapError]

theorem Throwing.bind_eq_ok_iff {α β : Type} {first : Throwing α}
    {next : α → Throwing β} {result : β} :
    (first >>= next) = .ok result ↔
      ∃ value, first = .ok value ∧ next value = .ok result := by
  cases first with
  | ok value => simp [bind, Except.bind]
  | error exception => simp [bind, Except.bind]

def demand (condition : Prop) [Decidable condition]
    (exception : GatewayException) : Throwing Unit :=
  if condition then .ok () else .error exception

theorem demand_eq_ok_iff {condition : Prop} [Decidable condition]
    {exception : GatewayException} {done : Unit} :
    demand condition exception = .ok done ↔ condition := by
  unfold demand
  split <;> simp_all

/-- The properties the session and artifact paths read. -/
structure GatewayConfiguration where
  keyId : JavaString
  artifactProductId : JavaString
  artifactChannel : JavaString
  artifactId : JavaString
  artifactFilename : JavaString
  maxArtifactBytes : Int64
  sessionTtlSeconds : Int64
  clockSkewSeconds : Int64
  deriving DecidableEq

def GatewayConfiguration.validateSecurityLimits
    (configuration : GatewayConfiguration) : Throwing Unit := do
  demand (¬(configuration.maxArtifactBytes < 1 ∨
      configuration.maxArtifactBytes.toInt > Protocol.maxArtifactBytes))
    (.illegalState ("loader.artifact.max-bytes must be between 1 and " ++
      toString Protocol.maxArtifactBytes))
  demand (¬(configuration.sessionTtlSeconds < 1 ∨
      configuration.sessionTtlSeconds > 300))
    (.illegalState "loader.session.ttl-seconds must be between 1 and 300")
  demand (¬(configuration.clockSkewSeconds < 0 ∨
      configuration.clockSkewSeconds > 300))
    (.illegalState
      "loader.session.clock-skew-seconds must be between 0 and 300")

/-- What an accepted configuration keeps to. -/
structure GatewayConfiguration.WithinLimits
    (configuration : GatewayConfiguration) : Prop where
  maxArtifactBytes : 1 ≤ configuration.maxArtifactBytes.toInt ∧
    configuration.maxArtifactBytes.toInt ≤ Protocol.maxArtifactBytes
  sessionTtlSeconds : 1 ≤ configuration.sessionTtlSeconds.toInt ∧
    configuration.sessionTtlSeconds.toInt ≤ 300
  clockSkewSeconds : 0 ≤ configuration.clockSkewSeconds.toInt ∧
    configuration.clockSkewSeconds.toInt ≤ 300

theorem GatewayConfiguration.withinLimits {configuration : GatewayConfiguration}
    (accepted : configuration.validateSecurityLimits = .ok ()) :
    configuration.WithinLimits := by
  have one : (1 : Int64).toInt = 1 := rfl
  have zero : (0 : Int64).toInt = 0 := rfl
  have most : (300 : Int64).toInt = 300 := rfl
  simp only [validateSecurityLimits, Throwing.bind_eq_ok_iff,
    demand_eq_ok_iff, exists_const] at accepted
  obtain ⟨size, ttl, skew⟩ := accepted
  simp only [not_or, Int64.not_lt, gt_iff_lt, not_lt, Int64.le_iff_toInt_le,
    one, zero, most] at size ttl skew
  exact ⟨size, ttl, skew⟩

/-- The Ed25519 operations of the JDK under the configured key pair; absent
where they throw. -/
structure Ed25519 where
  signature : Bytes → Option Bytes
  verification : (message signature : Bytes) → Option Bool
  signature_length : ∀ message bytes, signature message = some bytes →
    bytes.length = ed25519SignatureBytes

def Ed25519.sign (ed25519 : Ed25519) (message : Bytes) : Throwing Bytes :=
  match ed25519.signature message with
  | some bytes => return bytes
  | none => throw (.illegalState "could not sign manifest")

def Ed25519.verify (ed25519 : Ed25519) (message signature : Bytes) :
    Throwing Bool :=
  match ed25519.verification message signature with
  | some valid => return valid
  | none => throw (.illegalState "could not verify manifest")

/-- What the self-check of the key pair signs. -/
def selfCheck : Bytes := ascii ['R', 'L', 'S', 'K']

def SigningKeys.load (ed25519 : Ed25519) : Throwing Unit :=
  match ed25519.signature selfCheck with
  | some check =>
      match ed25519.verification selfCheck check with
      | some true => return ()
      | _ => throw (.illegalState "invalid Ed25519 signing-key configuration")
  | none => throw (.illegalState "invalid Ed25519 signing-key configuration")

/-- An open artifact file that does not change: its bytes and how many of
them a read at a position returns beyond the first. -/
structure FileChannel where
  content : Bytes
  counts : Nat → Nat
  sized : content.length < 2 ^ 63

def FileChannel.size (channel : FileChannel) : Int64 :=
  Int64.ofNat channel.content.length

/-- One read into the 32 KiB buffer. -/
def FileChannel.read (channel : FileChannel) (position : Nat) : Bytes :=
  (channel.content.drop position).take
    (min (32 * 1024) (channel.counts position + 1))

/-- The read loop of `sha256` and `writeTo`: the bytes in order, or nothing
when the file ends early.  Every round reads at least one byte. -/
def FileChannel.readFrom (channel : FileChannel) (size : Nat) :
    Nat → Nat → Option Bytes
  | 0, position => if position < size then none else some []
  | rounds + 1, position =>
      if position < size then
        let bytes := channel.read position
        if bytes = [] then none
        else (channel.readFrom size rounds (position + bytes.length)).map
          (bytes ++ ·)
      else some []

def FileChannel.readAll (channel : FileChannel) (size : Int64) :
    Option Bytes :=
  channel.readFrom size.toInt.toNat size.toInt.toNat 0

structure Artifact where
  id : JavaString
  filename : JavaString
  size : Int64
  sha256 : Bytes
  channel : FileChannel

/-- What `writeTo` streams; absent where it throws. -/
def Artifact.writeTo (artifact : Artifact) : Option Bytes :=
  artifact.channel.readAll artifact.size

/-- `loadConfiguredArtifact`, given what the lookup of the file returned. -/
def ArtifactCatalog.load (sha256 : Bytes → Bytes)
    (configuration : GatewayConfiguration) (located : Throwing FileChannel) :
    Throwing Artifact := do
  let channel ← located
  let size := channel.size
  demand (¬(size < 1 ∨ size > configuration.maxArtifactBytes))
    .artifactUnavailable
  match channel.readAll size with
  | none => throw .artifactUnavailable
  | some bytes => return ⟨configuration.artifactId,
      configuration.artifactFilename, size, sha256 bytes, channel⟩

/-- A gateway whose startup succeeded. -/
structure Deployment where
  jdk : CaseMapping
  ed25519 : Ed25519
  sha256 : Bytes → Bytes
  configuration : GatewayConfiguration
  located : Throwing FileChannel
  configured : Artifact
  limits : configuration.validateSecurityLimits = .ok ()
  keys : SigningKeys.load ed25519 = .ok ()
  loaded : ArtifactCatalog.load sha256 configuration located = .ok configured

/-- The configured names are protocol fields. -/
structure Publishable (gateway : Deployment) : Prop where
  keyId : Wire.requireIdentifier "keyId" gateway.configuration.keyId 64 = .ok ()
  artifactId : Wire.requireIdentifier "artifactId"
    gateway.configuration.artifactId 128 = .ok ()
  filename : Wire.requireFilename gateway.jdk
    gateway.configuration.artifactFilename = .ok ()

def Deployment.resolve (gateway : Deployment) (productId channel : JavaString) :
    Throwing Artifact :=
  if gateway.configuration.artifactProductId ≠ productId ∨
      gateway.configuration.artifactChannel ≠ channel then
    throw .artifactNotFound
  else return gateway.configured

def Deployment.resolveForManifest (gateway : Deployment) (artifactId : JavaString)
    (size : Int64) (sha256 : Bytes) : Throwing Artifact :=
  if gateway.configured.id ≠ artifactId ∨ gateway.configured.size ≠ size ∨
      gateway.configured.sha256 ≠ sha256 then
    throw .artifactNotFound
  else return gateway.configured

private theorem FileChannel.readFrom_eq {channel : FileChannel}
    {rounds position : Nat} (within : position ≤ channel.content.length)
    (enough : channel.content.length - position ≤ rounds) :
    channel.readFrom channel.content.length rounds position =
      some (channel.content.drop position) := by
  induction rounds generalizing position with
  | zero =>
      have ended : position = channel.content.length := by omega
      rw [readFrom, if_neg (by omega), ended, List.drop_length]
  | succ rounds ih =>
      rw [readFrom]
      by_cases more : position < channel.content.length
      · rw [if_pos more]
        dsimp only
        have length : (channel.read position).length =
            min (min (32 * 1024) (channel.counts position + 1))
              (channel.content.length - position) := by
          rw [read, List.length_take, List.length_drop]
        have present : channel.read position ≠ [] := by
          intro empty
          rw [empty] at length
          simp only [List.length_nil] at length
          omega
        rw [if_neg present, ih (by omega) (by omega), Option.map_some]
        congr 1
        rw [← List.drop_drop]
        exact List.prefix_iff_eq_append.mp (List.take_prefix _ _)
      · rw [if_neg more, List.drop_eq_nil_of_le (by omega)]

theorem FileChannel.toInt_size (channel : FileChannel) :
    channel.size.toInt = channel.content.length := by
  have sized := channel.sized
  have range : (Int64.size : Int) = 2 ^ 64 := rfl
  rw [size, Int64.toInt_ofNat']
  apply Int.bmod_eq_of_le <;> omega

theorem FileChannel.readAll_size (channel : FileChannel) :
    channel.readAll channel.size = some channel.content := by
  rw [readAll, channel.toInt_size, Int.toNat_natCast,
    readFrom_eq (Nat.zero_le _) (Nat.sub_le _ _), List.drop_zero]

/-- What the catalog knows about its artifact. -/
theorem Deployment.configured_eq (gateway : Deployment) : ∃ channel,
    gateway.configured = ⟨gateway.configuration.artifactId,
      gateway.configuration.artifactFilename, channel.size,
      gateway.sha256 channel.content, channel⟩ ∧
    1 ≤ channel.content.length ∧
    (channel.content.length : Int) ≤ Protocol.maxArtifactBytes := by
  have loaded := gateway.loaded
  simp only [ArtifactCatalog.load, Throwing.bind_eq_ok_iff,
    demand_eq_ok_iff, exists_const] at loaded
  obtain ⟨channel, -, sized, built⟩ := loaded
  rw [channel.readAll_size] at built
  refine ⟨channel, (Except.ok.inj built).symm, ?_⟩
  have limits := (gateway.configuration.withinLimits
    gateway.limits).maxArtifactBytes
  simp only [not_or, Int64.not_lt, gt_iff_lt, Int64.le_iff_toInt_le,
    channel.toInt_size] at sized
  have one : (1 : Int64).toInt = 1 := rfl
  omega

end RymgaLoader.Gateway
