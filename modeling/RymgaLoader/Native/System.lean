import RymgaLoader.Lib.Interleaving
import RymgaLoader.Native.Names

/-!
# System calls of the platform layer

The calls the native core makes to the operating system and to the allocator,
and what each outcome does to the world.  Any call may fail; a call that
reports success has taken effect.  The world also records which process is at
which point of a scan; programs never read that record.
-/

namespace RymgaLoader.Native

/-- `rymga_loader_artifact`: the duplicated directory and file paths, each
absent when its `strdup` failed. -/
structure Artifact where
  directory : Option Name
  path : Option (Name × Name)
  deriving DecidableEq, Repr

/-- `rymga_platform_plugin`; an empty name is an empty path. -/
structure Plugin where
  destination : Name
  marker : Name
  anchor : Name
  volumeId : Nat
  fileId : Nat
  deriving DecidableEq, Repr

def Plugin.zero : Plugin := ⟨[], [], [], 0, 0⟩

inductive KillResult
  | delivered
  | noSuchProcess
  | notPermitted
  deriving DecidableEq, Repr

/-- What `OpenProcess` reports. -/
inductive ProcessResult
  | opened
  | accessDenied
  | failed
  deriving DecidableEq, Repr

/-- `STILL_ACTIVE`, the exit code reported of a process that runs. -/
def stillActive : UInt32 := 259

inductive OpenResult
  | opened (ref : FileRef)
  | occupied
  | failed
  deriving DecidableEq, Repr

inductive DirectoryResult
  | created
  | occupied
  | failed
  deriving DecidableEq, Repr

/-- The outcome of one `read` or `write`; `EINTR` is told apart where the code
looks at it. -/
inductive Transfer (α : Type)
  | completed (value : α)
  | interrupted
  | failed
  deriving DecidableEq, Repr

/-- The calls.  `readInput` and `writeOutput` carry the number of signals that
are still to arrive, and `readInput` the part of the input not yet read. -/
inductive Call
  | allocate
  | duplicatePaths
  | setup
  | time
  | getpid
  | kill (pid : Int)
  | openProcess (pid : Int)
  | exitCode (pid : Int)
  | random (count : Nat)
  | directoryOk
  | makeDirectory
  | openRoot
  | duplicate
  | chmod
  | mkdtemp
  | mkstemp
  | createDirectory (name : Name)
  | openExcl (place : Place)
  | openInput
  | readInput (interruptions : Nat) (rest : Bytes)
  | write (ref : FileRef) (bytes : Bytes)
  | writeOutput (interruptions : Nat) (ref : FileRef) (bytes : Bytes)
  | fsync (ref : FileRef)
  | close
  | unlink (place : Place)
  | rename (directory source target : Name)
  | rmdir (name : Name)
  | rmdirAt (name : Name)
  | openDirectory (name : Name)
  | statDirectory (id : Nat)
  | openRead (place : Place)
  | read (ref : FileRef) (count : Nat)
  | fstat (ref : FileRef)
  | fstatat (place : Place)
  | scan (directory : Option Nat)
  | endScan (directory : Option Nat)
  | link (source target : Name)
  | note (inode : Nat)

@[reducible] def Answer : Call → Type
  | .allocate | .setup | .directoryOk | .makeDirectory | .openRoot |
    .duplicate | .chmod | .openInput | .fsync _ | .close | .unlink _ |
    .rename _ _ _ | .rmdir _ | .rmdirAt _ | .link _ _ => Bool
  | .duplicatePaths => Bool × Bool
  | .time => Int64
  | .getpid => Nat
  | .kill _ => KillResult
  | .openProcess _ => ProcessResult
  | .exitCode _ => Option UInt32
  | .random _ => Bytes
  | .mkdtemp => Option Name
  | .mkstemp => Option (Name × FileRef)
  | .createDirectory _ => DirectoryResult
  | .openExcl _ => OpenResult
  | .readInput _ _ => Transfer Bytes
  | .write _ _ => Option Nat
  | .writeOutput _ _ _ => Transfer Nat
  | .openDirectory _ => Option Nat
  | .statDirectory _ => Option Mode
  | .openRead _ => Option FileRef
  | .read _ _ => Option Bytes
  | .fstat _ => Option Stat
  | .fstatat _ => Option Stat
  | .scan _ => Option (List Name)
  | .endScan _ => Unit
  | .note _ => Unit

abbrev Os (α : Type) := Program Call Answer α

/-- The call that answers with its own result. -/
abbrev sys (call : Call) : Os (Answer call) := Program.perform call

/-- Where a process stands: the directory entry its stale scan is at, the
entries its current directory scan has not returned, the entry whose identity
it has just read, the file of the shared directory it has opened last, the
inode number it has noted, and what it holds. -/
structure Standing where
  working : Option Name := none
  missed : List Name := []
  checked : Option Name := none
  reading : Option FileRef := none
  noted : Option Nat := none
  artifacts : List Artifact := []
  plugins : List Plugin := []

structure World where
  disk : Disk
  clock : Int64
  born : Nat
  alive : Process → Bool
  pidOf : Process → Nat
  standing : Process → Standing

namespace World

/-- An empty shared directory and no process. -/
def initial : World where
  disk := ⟨∅, fun _ => ⟨∅, .privateDirectory, none, []⟩,
    fun _ => ⟨[], .privateFile, none⟩, 1, 0, 0, fun _ => none⟩
  clock := 0
  born := 0
  alive _ := false
  pidOf _ := 0
  standing _ := {}

variable (world : World)

/-- Some live loader process has this identifier. -/
def hasPid (pid : Int) : Bool :=
  (List.range world.born).any fun process =>
    world.alive process ∧ (world.pidOf process : Int) = pid

def withDisk (disk : Disk) : World := { world with disk }

def withStanding (self : Process) (change : Standing → Standing) : World :=
  { world with
    standing := Function.update world.standing self
      (change (world.standing self)) }

/-- Room for a new entry. -/
def vacant : Slot → Bool
  | .top name => world.disk.root.lookup name = none
  | .inside id name =>
      (world.disk.directories id).entries.lookup name = none

def removeEmptyDirectory (name : Name) : Option World :=
  match world.disk.subdirectory name with
  | some id =>
      if (world.disk.directories id).entries.entries = [] then
        some (world.withDisk (world.disk.removeDirectory name))
      else none
  | none => none

/-- The world after `self` got `answer` from `call`; `none` when the call
cannot give that answer. -/
def effect (self : Process) : (call : Call) → Answer call → Option World
  | .allocate, _ | .duplicatePaths, _ | .setup, _ | .directoryOk, _ |
    .makeDirectory, _ | .openRoot, _ | .duplicate, _ | .chmod, _ |
    .openInput, _ | .fsync _, _ | .close, _ => some world
  | .time, now => if 0 ≤ now then some { world with clock := now } else none
  | .getpid, pid => if pid = world.pidOf self then some world else none
  | .kill pid, result =>
      if world.hasPid pid ∧ result ≠ .delivered then none else some world
  | .openProcess pid, result =>
      if world.hasPid pid ∧ result = .failed then none else some world
  | .exitCode _, none => some world
  | .exitCode pid, some code =>
      if world.hasPid pid ∧ code ≠ stillActive then none else some world
  | .random count, bytes => if bytes.length = count then some world else none
  | .mkdtemp, none | .mkstemp, none => some world
  | .mkdtemp, some name =>
      if tempName name ∧ world.disk.root.lookup name = none then
        some (world.withDisk (world.disk.makeDirectory name self))
      else none
  | .mkstemp, some (name, ref) =>
      if pluginPartialName name ∧ world.disk.root.lookup name = none ∧
          world.disk.Fresh ref then
        some (world.withDisk (world.disk.create (.top name) ref self))
      else none
  | .createDirectory _, .failed => some world
  | .createDirectory name, .occupied =>
      if world.disk.root.lookup name = none then none else some world
  | .createDirectory name, .created =>
      if world.disk.root.lookup name = none then
        some (world.withDisk (world.disk.makeDirectory name self))
      else none
  | .openExcl _, .failed => some world
  | .openExcl place, .occupied =>
      match world.disk.resolve place with
      | some slot => if world.vacant slot then none else some world
      | none => none
  | .openExcl place, .opened ref =>
      match world.disk.resolve place with
      | some slot =>
          if world.vacant slot ∧ world.disk.Fresh ref then
            some (world.withDisk (world.disk.create slot ref self))
          else none
      | none => none
  | .readInput _ _, .failed | .writeOutput _ _ _, .failed => some world
  | .readInput interruptions _, .interrupted |
    .writeOutput interruptions _ _, .interrupted =>
      if 0 < interruptions then some world else none
  | .readInput _ rest, .completed chunk =>
      if chunk.isPrefixOf rest ∧ (chunk = [] → rest = []) ∧
          chunk.length ≤ 32768 then some world
      else none
  | .write _ _, none => some world
  | .write ref bytes, some count =>
      if count ≤ bytes.length then
        some (world.withDisk (world.disk.append ref (bytes.take count)))
      else none
  | .writeOutput _ ref bytes, .completed count =>
      if count ≤ bytes.length then
        some (world.withDisk (world.disk.append ref (bytes.take count)))
      else none
  | .unlink _, false => some world
  | .unlink place, true =>
      match world.disk.resolve place with
      | some slot =>
          if (world.disk.entry slot).isSome then
            some (world.withDisk (world.disk.detach slot))
          else none
      | none => none
  | .rename _ _ _, false => some world
  | .rename directory source target, true =>
      match world.disk.subdirectory directory with
      | some id =>
          match world.disk.entry (.inside id source) with
          | some ref => some (world.withDisk
              ((world.disk.detach (.inside id source)).attach
                (.inside id target) ref))
          | none => none
      | none => none
  | .rmdir _, false => some world
  | .rmdir name, true => world.removeEmptyDirectory name
  | .rmdirAt _, false =>
      some (world.withStanding self fun standing =>
        { standing with working := none })
  | .rmdirAt name, true =>
      (world.removeEmptyDirectory name).map fun world =>
        world.withStanding self fun standing =>
          { standing with working := none }
  | .openDirectory _, none =>
      some (world.withStanding self fun standing =>
        { standing with working := none })
  | .openDirectory name, some id =>
      if world.disk.openDirectory name = some id then
        some (world.withStanding self fun standing =>
          { standing with working := some name })
      else none
  | .statDirectory _, none => some world
  | .statDirectory id, some mode =>
      if mode = (world.disk.directories id).mode then some world else none
  | .openRead _, none => some world
  | .openRead place, some ref =>
      if world.disk.openFile place = some ref then
        match place with
        | .top _ => some (world.withStanding self fun standing =>
            { standing with reading := some ref })
        | _ => some world
      else none
  | .read _ _, none => some world
  | .read ref count, some bytes =>
      if bytes = (world.disk.files ref).content.take count then some world
      else none
  | .fstat _, none => some world
  | .fstat ref, some stat =>
      if stat = world.disk.statFile ref then some world else none
  | .fstatat _, none => some world
  | .fstatat place, some stat =>
      if world.disk.stat place = some stat then
        match place with
        | .top name => some (world.withStanding self fun standing =>
            { standing with checked := some name })
        | _ => some world
      else none
  | .scan _, none => some world
  | .scan directory, some names =>
      some (world.withStanding self fun standing =>
        { standing with
          missed := (world.disk.names directory).filter (· ∉ names) })
  | .endScan directory, () =>
      if ∀ name ∈ (world.standing self).missed,
          name ∉ world.disk.names directory then some world
      else none
  | .link _ _, false => some world
  | .link source target, true =>
      match world.disk.entry (.top source) with
      | some ref =>
          if world.disk.root.lookup target = none then
            some (world.withDisk (world.disk.attach (.top target) ref))
          else none
      | none => none
  | .note inode, () =>
      some (world.withStanding self fun standing =>
        { standing with noted := some inode })

/-- `effect`, after forgetting which identity the process read last. -/
def exec (self : Process) (call : Call) (answer : Answer call) :
    Option World :=
  (world.withStanding self fun standing =>
    { standing with checked := none }).effect self call answer

end World

/-- What a call of `self` may answer and do. -/
def semantics (self : Process) : Program.Semantics Call Answer World :=
  fun call before answer after => before.exec self call answer = some after

end RymgaLoader.Native
