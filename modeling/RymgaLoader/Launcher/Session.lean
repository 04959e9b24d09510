import RymgaLoader.Launcher.Arguments
import RymgaLoader.Launcher.HexKey
import RymgaLoader.Native.Materialize

/-!
# A session of the POSIX launcher

`main` of `rymga_loader.c` from the argument vector to the exit status.  The
runtime directory and the plugin directory are two worlds, in which nobody but
the launcher and, while it is waited for, its child acts.  Reading the license
is one call.
-/

namespace RymgaLoader.Launcher.Session

open Native WindowsArguments

/-- The outcome of `waitpid`; `EINTR` is told apart from the other errors. -/
inductive Waited
  | exited (status : Nat)
  | signaled (signal : Nat)
  | other
  | interrupted
  | failed
  deriving DecidableEq, Repr

/-- The calls.  `waitpid` carries the number of signals that are still to
arrive, and `fork` what the child will execute. -/
inductive Call
  | runtime (call : Native.Call)
  | plugins (call : Native.Call)
  | readLicense (stdin : Bool)
  | content (directory file : Name)
  | calloc
  | fork (arguments : Strings)
  | waitpid (signals : Nat)

@[reducible] def Answer : Call → Type
  | .runtime call => Native.Answer call
  | .plugins call => Native.Answer call
  | .readLicense _ => Option Bytes
  | .content _ _ => Bytes
  | .calloc => Bool
  | .fork _ => Bool
  | .waitpid _ => Waited

abbrev Launch (α : Type) := Program Call Answer α

abbrev ask (call : Call) : Launch (Answer call) := Program.perform call

/-- A program in the runtime directory. -/
def inRuntime {α : Type} (program : Os α) : Launch α :=
  program.lift .runtime fun _ answer => answer

/-- A program in the plugin directory. -/
def inPlugins {α : Type} (program : Os α) : Launch α :=
  program.lift .plugins fun _ answer => answer

/-- What the launcher meets: libsodium, the network and the clock, and the
signals that arrive while it copies a plugin or waits. -/
structure Setting where
  sodium : Sodium
  inputs : Inputs
  copySignals : Nat
  waitSignals : Nat

def defaultRuntimeDirectory : Bytes :=
  ascii "/tmp/rymga-loader-runtime".toList

def loaderVersion : Bytes := ascii "0.1.0".toList

def runtimeDirectory (parsed : Parsed) : Bytes :=
  parsed.runtimeDirectory.getD defaultRuntimeDirectory

def pluginDirectory (parsed : Parsed) : Bytes :=
  parsed.pluginDirectory.getD []

/-- The loop over the keys; a key that is not hexadecimal ends it. -/
def publicKeys (keys : List (Bytes × Bytes)) : Option (List PublicKey) :=
  keys.mapM fun key =>
    (Posix.hexKey (some key.2)).map (PublicKey.mk (some key.1))

def request (parsed : Parsed) (keys : List PublicKey) : Request where
  endpoint := some parsed.endpoint
  productId := some parsed.product
  channel := some parsed.channel
  loaderVersion := some loaderVersion
  installationId := some parsed.installationId
  runtimeDirectory := runtimeDirectory parsed
  caBundlePath := parsed.caBundle
  trustedKeys := some keys
  timeoutSeconds := 30

/-- `rymga_loader_artifact_path`, as the entries it leads through. -/
def artifactPath : Option Artifact → Option (Name × Name)
  | some artifact => artifact.path
  | none => none

/-- `rymga_loader_artifact_release`. -/
def releaseArtifact (parsed : Parsed) : Option Artifact → Launch Unit
  | some artifact =>
      inRuntime (artifactRelease (runtimeDirectory parsed) artifact)
  | none => return ()

/-- `rymga_platform_materialize_plugin` for the artifact. -/
def materialize (setting : Setting) (parsed : Parsed)
    (artifact : Option Artifact) : Launch (Option Plugin) :=
  match artifactPath artifact with
  | none => return none
  | some (directory, file) => do
      let source ← ask (.content directory file)
      inPlugins (materializePlugin setting.copySignals
        (pluginDirectory parsed) file source)

/-- The releases at the end, of the plugin only where there is one. -/
def finish (parsed : Parsed) (artifact : Option Artifact) :
    Option Plugin → Launch Unit
  | some plugin => do
      inPlugins (releasePlugin plugin)
      releaseArtifact parsed artifact
  | none => releaseArtifact parsed artifact

/-- The loop around `waitpid`; a signal ends no wait. -/
def waitChild : Nat → Launch Waited
  | 0 => ask (.waitpid 0)
  | signals + 1 => do
      match ← ask (.waitpid (signals + 1)) with
      | .interrupted => waitChild signals
      | waited => return waited

/-- The exit status for what became of the child. -/
def exitStatus : Waited → Nat
  | .exited status => status
  | .signaled signal => 128 + signal
  | .other | .interrupted | .failed => 1

/-- `child_argv`; only a path that is there is written into it. -/
def childArgv (parsed : Parsed) (argc : Nat) (argv : Strings)
    (artifact : Option Artifact) : Except Fault Strings :=
  match artifactPath artifact with
  | none => .error .nullPointer
  | some (directory, file) => Posix.childArgv parsed argc argv
      (slashed (slashed (runtimeDirectory parsed) directory) file)

/-- `main` from the array for the child on. -/
def runChild (setting : Setting) (parsed : Parsed) (argc : Nat)
    (argv : Strings) (artifact : Option Artifact) (plugin : Option Plugin) :
    Launch (Except Fault Nat) := do
  if !(← ask .calloc) then
    finish parsed artifact plugin
    return .ok 1
  match childArgv parsed argc argv artifact with
  | .error fault => return .error fault
  | .ok arguments =>
      if !(← ask (.fork arguments)) then
        finish parsed artifact plugin
        return .ok 1
      let waited ← waitChild setting.waitSignals
      finish parsed artifact plugin
      return .ok (exitStatus waited)

/-- `main` from the acquisition on. -/
def launch (setting : Setting) (parsed : Parsed) (argc : Nat)
    (argv : Strings) (keys : List PublicKey) (license : Bytes) :
    Launch (Except Fault Nat) := do
  let (result, artifact) ← inRuntime (acquire setting.sodium
    (some (request parsed keys)) (some license) setting.inputs)
  if result ≠ .ok then return .ok 1
  if parsed.preload then
    match ← materialize setting parsed artifact with
    | none =>
        releaseArtifact parsed artifact
        return .ok 1
    | some plugin =>
        runChild setting parsed argc argv artifact (some plugin)
  else runChild setting parsed argc argv artifact none

/-- The directories `main` insists on. -/
def ensureDirectories (parsed : Parsed) : Launch Bool := do
  if !(← inRuntime ensurePrivateDirectory) then return false
  if parsed.preload then inPlugins ensurePrivateDirectory
  else return true

def main (setting : Setting) (argc : Nat) (argv : Strings) :
    Launch (Except Fault Nat) :=
  match Posix.parse argc argv with
  | .error fault => return .error fault
  | .ok none => return .ok 2
  | .ok (some parsed) => do
      if !(← ensureDirectories parsed) then return .ok 2
      match publicKeys parsed.keys with
      | none => return .ok 2
      | some keys =>
          match ← ask (.readLicense parsed.licenseStdin) with
          | none => return .ok 2
          | some license => launch setting parsed argc argv keys license

/-- A child as it was started: its arguments and the directories it found. -/
structure Child where
  arguments : Strings
  runtime : Disk
  plugins : Disk

/-- The two directories, the children started, whether one is waited for, what
the last wait ended with and left, and whether a directory was used while a
child was waited for. -/
structure Machine where
  runtime : World
  plugins : World
  children : List Child
  awaited : Bool
  ended : Option (Waited × Disk)
  disturbed : Bool

namespace Machine

/-- A machine on which no child has been started. -/
def initial (runtime plugins : World) : Machine :=
  ⟨runtime, plugins, [], false, none, false⟩

def setRuntime (machine : Machine) (runtime : World) : Machine :=
  { machine with
    runtime
    disturbed := machine.disturbed || machine.awaited }

def setPlugins (machine : Machine) (plugins : World) : Machine :=
  { machine with
    plugins
    disturbed := machine.disturbed || machine.awaited }

def start (machine : Machine) (arguments : Strings) : Machine :=
  { machine with
    children := machine.children ++
      [⟨arguments, machine.runtime.disk, machine.plugins.disk⟩]
    awaited := true }

def wait (machine : Machine) (waited : Waited) (disk : Disk) : Machine :=
  { machine with
    plugins := machine.plugins.withDisk disk
    awaited := decide (waited = .interrupted)
    ended := some (waited, disk) }

end Machine

/-- The names of the loader's own files in a plugin directory. -/
def loaderName (name : Name) : Bool :=
  pluginPartialName name || pluginMarkerName name

/-- What a child may do to the plugin directory: anything but change the
entries of the loader's own files, or what kind of file they lead to.  The
system keeps inode numbers apart. -/
structure Hosted (before after : Disk) : Prop where
  hidden : ∀ name, loaderName name = true →
    after.entry (.top name) = before.entry (.top name)
  regular : ∀ name ref, loaderName name = true →
    before.entry (.top name) = some ref →
      (before.files ref).mode.regular = true →
        (after.files ref).mode.regular = true
  volume : after.volume = before.volume
  distinct : after.DistinctInodes

/-- Deletions succeed, drawn marker names are free, and directories are read as
they are. -/
def smooth (directory : Bytes) (call : Native.Call) (world : World)
    (answer : Native.Answer call) : Prop :=
  undisturbed directory call world answer ∧
    refusing (fun _ => False) call world answer

/-- The content behind a path in the runtime directory; nothing where there is
no file. -/
def contentOf (disk : Disk) (directory file : Name) : Bytes :=
  match disk.lookup (.path directory file) with
  | some ref => (disk.files ref).content
  | none => []

end RymgaLoader.Launcher.Session
