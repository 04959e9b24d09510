import RymgaLoader.Protocol.Fields
import Mathlib.Data.List.AList

/-!
# The shared directory on disk

The part of the file system the platform layer works in: one shared directory
that holds files and flat subdirectories.  A file is an object of its own;
directory entries are links to it, and it outlives its last link for whoever
still has it open.  Inode numbers are unique among linked files only.
-/

namespace RymgaLoader.Native

abbrev Name := Bytes

/-- Loader processes, numbered in the order in which they started; a process
identifier may be reused, this number is not. -/
abbrev Process := Nat

/-- A file object with the inode number `stat` reports for it. -/
structure FileRef where
  index : Nat
  inode : Nat
  deriving DecidableEq, Repr

/-- What the checks of the platform layer read from `st_mode` and `st_uid`, and
whether the system lets the user read the file or list the directory, and look
up the entries of the directory. -/
structure Mode where
  regular : Bool
  owned : Bool
  shared : Bool
  writable : Bool
  readable : Bool
  searchable : Bool
  deriving DecidableEq, Repr

/-- The mode of a file created with `0600`. -/
def Mode.privateFile : Mode := ⟨true, true, false, false, true, false⟩

/-- The mode of a directory created with `0700`. -/
def Mode.privateDirectory : Mode := ⟨false, true, false, false, true, true⟩

structure File where
  content : Bytes
  mode : Mode
  creator : Option Process
  deriving DecidableEq

structure Stat where
  volume : Nat
  inode : Nat
  size : Nat
  mode : Mode
  deriving DecidableEq, Repr

inductive Node
  | file (ref : FileRef)
  | directory (id : Nat)
  deriving DecidableEq, Repr

/-- A subdirectory, with its creator and the name it was created under. -/
structure Directory where
  entries : AList (fun _ : Name => FileRef)
  mode : Mode
  creator : Option Process
  name : Name

/-- Where a directory entry is kept. -/
inductive Slot
  | top (name : Name)
  | inside (id : Nat) (name : Name)
  deriving DecidableEq, Repr

/-- The shared directory, its subdirectories and the files, each with the entry
it was created under. -/
structure Disk where
  root : AList (fun _ : Name => Node)
  directories : Nat → Directory
  files : FileRef → File
  volume : Nat
  nextDirectory : Nat
  nextFile : Nat
  origin : FileRef → Option Slot

/-- How a call names an entry: directly in the shared directory, by a path
through one of its subdirectories, or through an open descriptor. -/
inductive Place
  | top (name : Name)
  | path (directory name : Name)
  | at (id : Nat) (name : Name)
  deriving DecidableEq, Repr

namespace Disk

variable (disk : Disk)

def subdirectory (name : Name) : Option Nat :=
  match disk.root.lookup name with
  | some (.directory id) => some id
  | _ => none

def resolve : Place → Option Slot
  | .top name => some (.top name)
  | .path directory name => (disk.subdirectory directory).map (.inside · name)
  | .at id name => some (.inside id name)

def entry : Slot → Option FileRef
  | .top name =>
      match disk.root.lookup name with
      | some (.file ref) => some ref
      | _ => none
  | .inside id name => (disk.directories id).entries.lookup name

def lookup (place : Place) : Option FileRef :=
  (disk.resolve place).bind disk.entry

/-- The user may look up entries where the place is. -/
def searchable : Place → Bool
  | .top _ => true
  | .path directory _ =>
      match disk.subdirectory directory with
      | some id => (disk.directories id).mode.searchable
      | none => false
  | .at id _ => (disk.directories id).mode.searchable

/-- The file that opening for reading leads to. -/
def openFile (place : Place) : Option FileRef :=
  (disk.lookup place).filter fun ref =>
    disk.searchable place && (disk.files ref).mode.readable

/-- The subdirectory that opening for reading leads to. -/
def openDirectory (name : Name) : Option Nat :=
  (disk.subdirectory name).filter fun id => (disk.directories id).mode.readable

def setEntries (id : Nat) (entries : AList (fun _ : Name => FileRef)) : Disk :=
  { disk with
    directories := Function.update disk.directories id
      ({ disk.directories id with entries } : Directory) }

def attach (slot : Slot) (ref : FileRef) : Disk :=
  match slot with
  | .top name => { disk with root := disk.root.insert name (.file ref) }
  | .inside id name =>
      disk.setEntries id ((disk.directories id).entries.insert name ref)

def detach (slot : Slot) : Disk :=
  match slot with
  | .top name => { disk with root := disk.root.erase name }
  | .inside id name =>
      disk.setEntries id ((disk.directories id).entries.erase name)

def setFile (ref : FileRef) (file : File) : Disk :=
  { disk with files := Function.update disk.files ref file }

def append (ref : FileRef) (bytes : Bytes) : Disk :=
  disk.setFile ref
    { disk.files ref with content := (disk.files ref).content ++ bytes }

/-- Create an empty private file and link it. -/
def create (slot : Slot) (ref : FileRef) (creator : Process) : Disk :=
  { (disk.setFile ref ⟨[], .privateFile, some creator⟩).attach slot ref with
    nextFile := disk.nextFile + 1
    origin := Function.update disk.origin ref (some slot) }

def makeDirectory (name : Name) (creator : Process) : Disk :=
  { disk with
    root := disk.root.insert name (.directory disk.nextDirectory)
    directories := Function.update disk.directories disk.nextDirectory
      ⟨∅, .privateDirectory, some creator, name⟩
    nextDirectory := disk.nextDirectory + 1 }

def removeDirectory (name : Name) : Disk :=
  { disk with root := disk.root.erase name }

/-- The inode numbers of the linked files. -/
def inodes : List Nat :=
  disk.root.entries.flatMap fun entry =>
    match entry.2 with
    | .file ref => [ref.inode]
    | .directory id =>
        (disk.directories id).entries.entries.map fun entry => entry.2.inode

/-- A file object that does not exist yet, with a free inode number. -/
def Fresh (ref : FileRef) : Prop :=
  ref.index = disk.nextFile ∧ ref.inode ≠ 0 ∧ ref.inode ∉ disk.inodes

instance (ref : FileRef) : Decidable (disk.Fresh ref) := by
  unfold Fresh
  infer_instance

def statFile (ref : FileRef) : Stat :=
  { volume := disk.volume, inode := ref.inode,
    size := (disk.files ref).content.length, mode := (disk.files ref).mode }

/-- `fstatat` without following links. -/
def stat (place : Place) : Option Stat :=
  match disk.lookup place with
  | some ref => some (disk.statFile ref)
  | none =>
      match place with
      | .top name => (disk.subdirectory name).map fun id =>
          { volume := disk.volume, inode := 0, size := 0,
            mode := (disk.directories id).mode }
      | _ => none

/-- The names in the shared directory or in a subdirectory. -/
def names : Option Nat → List Name
  | none => disk.root.keys
  | some id => (disk.directories id).entries.keys

variable {disk}

theorem openFile_eq_some_iff {place : Place} {ref : FileRef} :
    disk.openFile place = some ref ↔
      disk.lookup place = some ref ∧ disk.searchable place = true ∧
        (disk.files ref).mode.readable = true := by
  rw [openFile, Option.filter_eq_some_iff, Bool.and_eq_true]

theorem openFile_top {name : Name} {ref : FileRef}
    (linked : disk.entry (.top name) = some ref)
    (readable : (disk.files ref).mode.readable = true) :
    disk.openFile (.top name) = some ref :=
  openFile_eq_some_iff.mpr ⟨linked, rfl, readable⟩

theorem openDirectory_eq_some_iff {name : Name} {id : Nat} :
    disk.openDirectory name = some id ↔ disk.subdirectory name = some id ∧
      (disk.directories id).mode.readable = true := by
  rw [openDirectory, Option.filter_eq_some_iff]

@[simp] theorem entry_attach (slot other : Slot) (ref : FileRef) :
    (disk.attach slot ref).entry other =
      if other = slot then some ref else disk.entry other := by
  cases slot with
  | top name =>
      cases other with
      | top candidate =>
          by_cases same : candidate = name
          · subst same
            simp [attach, entry]
          · simp [attach, entry, same, AList.lookup_insert_ne]
      | inside id candidate => simp [attach, entry]
  | inside id name =>
      cases other with
      | top candidate => simp [attach, entry, setEntries]
      | inside other candidate =>
          by_cases sameId : other = id
          · subst sameId
            by_cases same : candidate = name
            · subst same
              simp [attach, entry, setEntries]
            · simp [attach, entry, setEntries, same, AList.lookup_insert_ne]
          · simp [attach, entry, setEntries, sameId]

@[simp] theorem entry_detach (slot other : Slot) :
    (disk.detach slot).entry other =
      if other = slot then none else disk.entry other := by
  cases slot with
  | top name =>
      cases other with
      | top candidate =>
          by_cases same : candidate = name
          · subst same
            simp [detach, entry]
          · simp [detach, entry, same, AList.lookup_erase_ne]
      | inside id candidate => simp [detach, entry]
  | inside id name =>
      cases other with
      | top candidate => simp [detach, entry, setEntries]
      | inside other candidate =>
          by_cases sameId : other = id
          · subst sameId
            by_cases same : candidate = name
            · subst same
              simp [detach, entry, setEntries]
            · simp [detach, entry, setEntries, same, AList.lookup_erase_ne]
          · simp [detach, entry, setEntries, sameId]

end Disk

end RymgaLoader.Native
