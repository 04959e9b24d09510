import RymgaLoader.Native.Acquire
import RymgaLoader.Native.Frames

/-!
# Processes sharing a runtime directory

Any number of processes download into, release from and clean up one runtime
directory.  They start and end at any moment, their calls interleave, and each
call may fail.
-/

namespace RymgaLoader.Native

open Interleaving

/-- A new process. -/
def World.spawn (world : World) (pid : Nat) : World :=
  { world with
    born := world.born + 1
    alive := Function.update world.alive world.born true
    pidOf := Function.update world.pidOf world.born pid
    standing := Function.update world.standing world.born {} }

/-- A process identifier is reused only after the death of its process. -/
def Spawns (before after : World) : Prop :=
  ∃ pid : Nat, 0 < pid ∧ (pid : Int) ≤ intMax ∧ before.hasPid pid = false ∧
    after = before.spawn pid

def Ticks (before after : World) : Prop :=
  ∃ now, before.clock ≤ now ∧ after = { before with clock := now }

/-- A process exits or crashes. -/
def Ends (self : Process) (before after : World) : Prop :=
  before.alive self = true ∧
    after = { before with alive := Function.update before.alive self false }

/-- One call of a live process.  The clock never goes back. -/
def acts (self : Process) : Program.Semantics Call Answer World :=
  fun call before answer after =>
    before.alive self = true ∧ before.exec self call answer = some after ∧
      before.clock ≤ after.clock

/-- What a process does with the runtime directory. -/
inductive RuntimeJob
  | download (sodium : Sodium) (q : Request) (m : Manifest)
      (encodedManifest : Bytes) (network : Exchange → Reply)
  | release (runtimeDirectory : Bytes) (artifact : Artifact)
  | cleanup

def RuntimeJob.program : RuntimeJob → Os (Option Artifact)
  | .download sodium q m encodedManifest network => do
      let (_, artifact) ← downloadArtifact sodium q m encodedManifest network
      return artifact
  | .release runtimeDirectory artifact => do
      artifactRelease runtimeDirectory artifact
      return none
  | .cleanup => do
      cleanupStale 86400
      return none

/-- The job writes the runtime directory down in this way. -/
def RuntimeJob.Uses (path : Bytes) : RuntimeJob → Prop
  | .download _ q _ _ _ => q.runtimeDirectory = path
  | .release runtimeDirectory _ => runtimeDirectory = path
  | .cleanup => True

/-- A download starts from an accepted manifest, a release gives up what the
process holds. -/
def RuntimeJob.Begins (self : Process) :
    RuntimeJob → World → World → Prop
  | .download _ _ m encodedManifest _, before, after =>
      parseManifest encodedManifest = some m ∧ after = before
  | .release _ artifact, before, after =>
      artifact ∈ (before.standing self).artifacts ∧
        after = before.withStanding self fun standing =>
          { standing with artifacts := standing.artifacts.erase artifact }
  | .cleanup, before, after => after = before

/-- After a job the process stands nowhere and holds what the job returned. -/
def World.collect (world : World) (self : Process)
    (artifact : Option Artifact) : World :=
  world.withStanding self fun standing =>
    { standing with
      working := none
      artifacts := artifact.toList ++ standing.artifacts }

def runtime : System Process Call Answer (Option Artifact) World where
  act := acts
  start self program before after := before.alive self = true ∧
    ∃ job : RuntimeJob, program = job.program ∧ job.Begins self before after
  finish self artifact before after := after = before.collect self artifact
  stop := Ends
  other before after := Spawns before after ∨ Ticks before after

def Place.name : Place → Name
  | .top name | .path _ name | .at _ name => name

/-- `mkdtemp` does not return the name of a directory that a live process has
opened for cleanup and has neither removed nor left. -/
def namesUnshared (_ : Process) (call : Call) (world : World)
    (answer : Answer call) : Prop :=
  match call, answer with
  | .mkdtemp, some name => ∀ process, world.alive process = true →
      (world.standing process).working ≠ some name
  | _, _ => True

/-- No deletion of an existing JAR or partial file fails, and the path of an
artifact is duplicated where its directory is. -/
def artifactsDeletable (call : Call) (world : World) (answer : Answer call) :
    Prop :=
  match call, answer with
  | .unlink place, false => place.name ≠ ownerMarker →
      world.disk.lookup place = none
  | .duplicatePaths, (directoryCopied, pathCopied) =>
      directoryCopied = true → pathCopied = true
  | _, _ => True

def filesDeletable (self : Process) (call : Call) (world : World)
    (answer : Answer call) : Prop :=
  namesUnshared self call world answer ∧
    artifactsDeletable call world answer

/-- The process does not hold an artifact in this directory. -/
def World.Unheld (world : World) (self : Process) (name : Name) : Prop :=
  ∀ artifact ∈ (world.standing self).artifacts,
    artifact.directory ≠ some name

/-- A cleanup deletes only what a dead process created; any other deletion is
of the process's own making and nothing it holds. -/
def sparesLiving (self : Process) (call : Call) (world : World)
    (answer : Answer call) : Prop :=
  match call, answer with
  | .unlink (.at id name), true => ∀ ref owner,
      world.disk.lookup (.at id name) = some ref →
      (world.disk.files ref).creator = some owner →
        world.alive owner = false
  | .rmdirAt name, true => ∀ id owner,
      world.disk.subdirectory name = some id →
      (world.disk.directories id).creator = some owner →
        world.alive owner = false
  | .unlink (.path directory name), true => world.Unheld self directory ∧
      ∀ ref owner, world.disk.lookup (.path directory name) = some ref →
        (world.disk.files ref).creator = some owner → owner = self
  | .rmdir name, true => world.Unheld self name ∧ ∀ id owner,
      world.disk.subdirectory name = some id →
      (world.disk.directories id).creator = some owner → owner = self
  | _, _ => True

end RymgaLoader.Native
