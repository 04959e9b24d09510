import RymgaLoader.Native.Sharing
import RymgaLoader.Native.WindowsPlatform

/-!
# Processes sharing a runtime directory on Windows

The jobs of `Runtime` with the platform layer of Windows.  A process writes the
runtime directory down in one way, and what it can ask the system about depends
on that path.
-/

namespace RymgaLoader.Native

open Interleaving

namespace Windows

def jobProgram (path : Bytes) : RuntimeJob → Os (Option Artifact)
  | .download sodium q m encodedManifest network => do
      let (_, artifact) ←
        windows.downloadArtifact sodium q m encodedManifest network
      return artifact
  | .release runtimeDirectory artifact => do
      windows.artifactRelease runtimeDirectory artifact
      return none
  | .cleanup => do
      cleanupStale path 86400
      return none

/-- The processes that write the runtime directory down as `paths` tells. -/
def runtime (paths : Process → Bytes) :
    System Process Call Answer (Option Artifact) World where
  act := acts
  start self program before after := before.alive self = true ∧
    ∃ job : RuntimeJob, job.Uses (paths self) ∧
      program = jobProgram (paths self) job ∧ job.Begins self before after
  finish self artifact before after := after = before.collect self artifact
  stop := Ends
  other before after := Spawns before after ∨ Ticks before after

/-- No new directory gets the name a live process has looked at last in its
cleanup. -/
def directoriesUnwatched (call : Call) (world : World)
    (answer : Answer call) : Prop :=
  match call, answer with
  | .createDirectory name, .created => ∀ process,
      world.alive process = true →
        (world.standing process).working ≠ some name
  | _, _ => True

/-- The paths of the JAR and the partial file of a directory that is scanned
fit the buffers of the cleanup. -/
def contentsReached (path : Bytes) (call : Call) (world : World)
    (answer : Answer call) : Prop :=
  match call, answer with
  | .scan (some id), some _ => ∀ file ref,
      world.disk.entry (.inside id file) = some ref →
      file = artifactPart ∨ jarName file = true →
        opens (slashed path (world.disk.directories id).name) file = true
  | _, _ => True

def filesDeletable (paths : Process → Bytes) (self : Process) (call : Call)
    (world : World) (answer : Answer call) : Prop :=
  Native.filesDeletable self call world answer ∧
    directoriesUnwatched call world answer ∧
    contentsReached (paths self) call world answer

/-- What a process holds it can ask the system about. -/
def Spelled (paths : Process → Bytes) (world : World) : Prop :=
  ∀ process, world.alive process = true →
    ∀ artifact ∈ (world.standing process).artifacts,
      ∀ name file, artifact.path = some (name, file) →
        windows.reachesFile (paths process) name file = true

/-- The discipline of the processes. -/
def sharing (paths : Process → Bytes) (tidy : Prop)
    (condition : Process → (call : Call) → World → Answer call → Prop) :
    Discipline ((runtime paths).under condition) where
  invariant world := world.Settled tidy ∧ Spelled paths world
  rely self before after :=
    before.alive self = true → before.Spares self after
  good _ _ _ _ := True

/-- No new directory gets a name that a live process stands at. -/
def Unwatched
    (condition : Process → (call : Call) → World → Answer call → Prop) :
    Prop :=
  ∀ self name world, condition self (.createDirectory name) world .created →
    directoriesUnwatched (.createDirectory name) world .created

/-- Every outcome that meets `condition` leaves names unshared and, in tidy
runs, files deletable. -/
structure Allows (paths : Process → Bytes) (tidy : Prop)
    (condition : Process → (call : Call) → World → Answer call → Prop) :
    Prop where
  files : Permits tidy condition
  unwatched : Unwatched condition
  reached : tidy → ∀ self id names world,
    condition self (.scan (some id)) world (some names) →
      contentsReached (paths self) (.scan (some id)) world (some names)

section

variable {paths : Process → Bytes} {tidy : Prop}
  {condition : Process → (call : Call) → World → Answer call → Prop}
  {self : Process} {before after : World}

theorem Spelled.acts {call : Call} {answer : Answer call}
    (spelled : Spelled paths before)
    (acted : acts self call before answer after) : Spelled paths after := by
  obtain ⟨alive, -, -, standing⟩ := World.exec_frame acted.2.1
  intro process living artifact member
  rw [alive] at living
  refine spelled process living artifact ?_
  by_cases same : process = self
  · subst same
    rw [← (World.exec_standing acted.2.1).1]
    exact member
  · rw [← standing process same]
    exact member

/-- A call that keeps to the discipline of `owning` keeps to this one. -/
theorem keeps_of_native {call : Call} {answer : Answer call}
    (spelled : Spelled paths before)
    (acted : acts self call before answer after)
    (keeps : (owning tidy condition).Keeps self call before answer
      after) : (sharing paths tidy condition).Keeps self call before answer
      after :=
  ⟨⟨keeps.invariant, spelled.acts acted⟩, keeps.rely, trivial⟩

theorem robust_of_native {β : Type} {post : β → World → Prop}
    {program : Os β} (robust : (owning tidy condition).Robust self post
      program before) :
    (sharing paths tidy condition).Robust self post program before := by
  refine Discipline.Robust.transfer ?_ ?_ ?_ ?_ robust
  · exact fun _ _ _ _ acted => acted
  · exact fun _ holds => holds.1
  · exact fun _ _ relied => relied
  · exact fun _ _ _ _ holds acted keeps =>
      keeps_of_native holds.2 acted.1 keeps

theorem stable_of_native {assertion : World → Prop}
    (stable : (owning tidy condition).Stable self assertion) :
    (sharing paths tidy condition).Stable self assertion :=
  stable.transfer (fun _ holds => holds.1) fun _ _ relied => relied

end

end Windows

end RymgaLoader.Native
