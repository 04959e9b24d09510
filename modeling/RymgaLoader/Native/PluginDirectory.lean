import RymgaLoader.Native.Plugins
import RymgaLoader.Native.Runtime

/-!
# A shared plugin directory

Any number of processes publish plugins in one plugin directory, release them
and clean up after the dead.  Their calls interleave and each may fail, they
start and end at any moment, and foreign parties create, replace, rewrite and
delete the entries that have no hidden name.
-/

namespace RymgaLoader.Native

open Interleaving Scan

/-- The inode number a plugin marker records, once a blank ends it. -/
def recordedFile (content : Bytes) : Option Nat := do
  let rest ← scanLiteral (ascii ['R', 'L', 'P', '1']) (cString content)
  let (_, rest) ← scanSigned rest
  let (_, rest) ← scanSigned rest
  let (_, rest) ← scanUnsigned rest
  let (file, rest) ← scanUnsigned rest
  if rest = [] then none else some file

namespace World

variable (world : World)

/-- A live process has just read the identity of the entry with this name. -/
def examines (name : Name) : Bool :=
  (List.range world.born).any fun process =>
    world.alive process && (world.standing process).checked = some name

/-- An entry is a marker that records this inode number. -/
def marks (inode : Nat) : Bool :=
  world.disk.root.entries.any fun entry =>
    match entry.2 with
    | .file ref => pluginMarkerName entry.1 &&
        recordedFile (world.disk.files ref).content = some inode
    | .directory _ => false

/-- A live process has noted this inode number, or has opened a marker that
records it. -/
def remembers (inode : Nat) : Bool :=
  (List.range world.born).any fun process =>
    world.alive process && ((world.standing process).noted = some inode ||
      (world.standing process).reading.any fun ref =>
        recordedFile (world.disk.files ref).content = some inode)

/-- The name under which something appears in the directory is not being
examined, and a new file gets a 64-bit inode number by which nothing may be
deleted any more. -/
def admits : Option (Name × Option Nat) → Bool
  | none => true
  | some (name, inode) => !world.examines name && inode.all fun inode =>
      inode < 2 ^ 64 && !world.marks inode && !world.remembers inode

end World

/-- Link a new file. -/
def Disk.plant (disk : Disk) (name : Name) (ref : FileRef) (file : File) :
    Disk :=
  { (disk.setFile ref file).attach (.top name) ref with
    nextFile := disk.nextFile + 1
    origin := Function.update disk.origin ref (some (.top name)) }

/-- Link a new directory that no loader made. -/
def Disk.plantDirectory (disk : Disk) (name : Name) (mode : Mode) : Disk :=
  { disk with
    root := disk.root.insert name (.directory disk.nextDirectory)
    directories := Function.update disk.directories disk.nextDirectory
      ⟨∅, mode, none, name⟩
    nextDirectory := disk.nextDirectory + 1 }

/-- What foreign parties do to the entries that have no hidden name.  A new
file or another link replaces what was there. -/
inductive Meddling
  | remove (name : Name)
  | put (name : Name) (ref : FileRef) (content : Bytes) (mode : Mode)
  | link (source target : Name)
  | makeDirectory (name : Name) (mode : Mode)
  | rewrite (name : Name) (content : Bytes) (mode : Mode)

/-- What appears, with the inode number of a new file. -/
def Meddling.adds : Meddling → Option (Name × Option Nat)
  | .remove _ | .rewrite _ _ _ => none
  | .put name ref _ _ => some (name, some ref.inode)
  | .link _ target => some (target, none)
  | .makeDirectory name _ => some (name, none)

def Meddling.effect (disk : Disk) : Meddling → Option Disk
  | .remove name =>
      if hiddenName name then none else some (disk.detach (.top name))
  | .put name ref content mode =>
      if hiddenName name = false ∧ disk.Fresh ref then
        some (disk.plant name ref ⟨content, mode, none⟩)
      else none
  | .link source target =>
      match disk.entry (.top source) with
      | some ref =>
          if hiddenName source || hiddenName target then none
          else some (disk.attach (.top target) ref)
      | none => none
  | .makeDirectory name mode =>
      if hiddenName name = false ∧ disk.root.lookup name = none ∧
          mode.regular = false then
        some (disk.plantDirectory name mode)
      else none
  | .rewrite name content mode =>
      match disk.entry (.top name) with
      | some ref =>
          if hiddenName name then none
          else some (disk.setFile ref
            { disk.files ref with content := content, mode := mode })
      | none => none

/-- The world with the marker names that processes have asked for. -/
structure Shared where
  world : World
  drawn : List Name

def Shared.initial : Shared := ⟨World.initial, []⟩

/-- The name under which a call asks for a new marker. -/
def Call.draws : Call → List Name
  | .openExcl (.top name) => [name]
  | _ => []

/-- What a call makes appear, with the inode number of a new file. -/
def Call.adds : (call : Call) → Answer call → Option (Name × Option Nat)
  | .mkstemp, some (name, ref) => some (name, some ref.inode)
  | .openExcl (.top name), .opened ref => some (name, some ref.inode)
  | .link _ target, true => some (target, none)
  | _, _ => none

/-- What a process does with the plugin directory. -/
inductive PluginJob
  | materialize (interruptions : Nat) (pluginDirectory : Bytes)
      (m : Manifest) (encodedManifest source : Bytes)
  | release (plugin : Plugin)
  | cleanup

def PluginJob.program : PluginJob → Os (Option Plugin)
  | .materialize interruptions pluginDirectory m _ source =>
      materializePlugin interruptions pluginDirectory m.filename source
  | .release plugin => do
      releasePlugin plugin
      return none
  | .cleanup => do
      cleanupPlugins
      return none

/-- A plugin has the filename of an accepted manifest; a release gives up what
the process holds. -/
def PluginJob.Begins (self : Process) : PluginJob → World → World → Prop
  | .materialize _ _ m encodedManifest _, before, after =>
      parseManifest encodedManifest = some m ∧ after = before
  | .release plugin, before, after =>
      plugin ∈ (before.standing self).plugins ∧
        after = before.withStanding self fun standing =>
          { standing with plugins := standing.plugins.erase plugin }
  | .cleanup, before, after => after = before

/-- After a job the process goes by nothing it has read, and holds what the
job returned. -/
def World.hold (world : World) (self : Process) (plugin : Option Plugin) :
    World :=
  world.withStanding self fun standing =>
    { standing with
      checked := none
      reading := none
      noted := none
      plugins := plugin.toList ++ standing.plugins }

def pluginDirectory : System Process Call Answer (Option Plugin) Shared where
  act self call before answer after :=
    acts self call before.world answer after.world ∧
      after.drawn = before.drawn ++ call.draws
  start self program before after := before.world.alive self = true ∧
    ∃ job : PluginJob, program = job.program ∧
      job.Begins self before.world after.world ∧ after.drawn = before.drawn
  finish self plugin before after :=
    after = { before with world := before.world.hold self plugin }
  stop self before after :=
    Ends self before.world after.world ∧ after.drawn = before.drawn
  other before after := after.drawn = before.drawn ∧
    (Spawns before.world after.world ∨ Ticks before.world after.world ∨
      ∃ (meddling : Meddling) (disk : Disk),
        meddling.effect before.world.disk = some disk ∧
        before.world.admits meddling.adds = true ∧
        after.world = before.world.withDisk disk)

/-- What a call makes appear is admitted, and nobody asks for a marker name a
second time. -/
def undoubted (_ : Process) (call : Call) (shared : Shared)
    (answer : Answer call) : Prop :=
  shared.world.admits (call.adds answer) = true ∧
    ∀ name ∈ call.draws, name ∉ shared.drawn

/-- The process holds nothing that this entry is part of. -/
def World.Spared (world : World) (self : Process) (name : Name)
    (inode : Nat) : Prop :=
  ∀ plugin ∈ (world.standing self).plugins,
    plugin.marker ≠ name ∧ plugin.fileId ≠ inode

/-- Only files of dead processes are deleted, and files of the process's own
that it does not hold; only such files of its own are written. -/
def sparesForeign (self : Process) (call : Call) (shared : Shared)
    (answer : Answer call) : Prop :=
  match call, answer with
  | .unlink (.top name), true => ∀ ref,
      shared.world.disk.entry (.top name) = some ref →
        ∃ owner, (shared.world.disk.files ref).creator = some owner ∧
          (shared.world.alive owner = false ∨
            owner = self ∧ shared.world.Spared self name ref.inode)
  | .write ref _, some _ | .writeOutput _ ref _, .completed _ =>
      (shared.world.disk.files ref).creator = some self ∧
        ∀ plugin ∈ (shared.world.standing self).plugins,
          plugin.fileId ≠ ref.inode
  | .unlink _, true | .rename _ _ _, true | .rmdir _, true |
    .rmdirAt _, true => False
  | _, _ => True

end RymgaLoader.Native
