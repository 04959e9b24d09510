import RymgaLoader.Native.Markers
import RymgaLoader.Native.System

/-!
# Temporary directories of the platform layer

The functions of `rymga_platform_posix.c` that create, remove and reclaim the
temporary directories of acquisitions.  Descriptors are closed without effect
on the model unless the code looks at the outcome.
-/

namespace RymgaLoader.Native

/-- `RYMGA_PLATFORM_PATH_MAX`, the size of every path buffer. -/
def pathMax : Nat := 4096

def slashed (directory name : Bytes) : Bytes := directory ++ 0x2F :: name

/-- The loop of `write_all` and `rymga_platform_write`; every round that goes
on has written at least one byte, so as many rounds as bytes suffice. -/
def writeRounds (file : FileRef) : Nat → Bytes → Os Bool
  | _, [] => return true
  | 0, _ :: _ => return false
  | rounds + 1, bytes => do
      match ← sys (.write file bytes) with
      | none | some 0 => return false
      | some (written + 1) => writeRounds file rounds (bytes.drop (written + 1))

def writeAll (file : FileRef) (bytes : Bytes) : Os Bool :=
  writeRounds file bytes.length bytes

def createMarker (runtimeDirectory : Bytes) (name : Name) : Os Bool := do
  let pid ← sys .getpid
  let now ← sys .time
  let content := ownerText pid now name
  if content.length ≥ 160 ∨
      (slashed (slashed runtimeDirectory name) ownerMarker).length ≥ pathMax then
    return false
  match ← sys (.openExcl (.path name ownerMarker)) with
  | .opened file =>
      let written ← writeAll file content
      let synced ← if written then sys (.fsync file) else pure false
      let closed ← sys .close
      if synced && closed then return true
      else
        let _ ← sys (.unlink (.path name ownerMarker))
        return false
  | _ =>
      let _ ← sys (.unlink (.path name ownerMarker))
      return false

/-- `rymga_platform_make_temp_directory`, returning the name it made. -/
def makeTempDirectory (runtimeDirectory : Bytes) : Os (Option Name) := do
  if (slashed runtimeDirectory tempStem).length + 6 ≥ pathMax then return none
  match ← sys .mkdtemp with
  | none => return none
  | some name =>
      let ready ← if ← sys .chmod then createMarker runtimeDirectory name
        else pure false
      if ready then return some name
      else
        let _ ← sys (.rmdir name)
        return none

/-- `rymga_platform_remove_directory`. -/
def removeDirectory (runtimeDirectory : Bytes) (name : Name) : Os Unit := do
  if (slashed (slashed runtimeDirectory name) ownerMarker).length < pathMax then
    let _ ← sys (.unlink (.path name ownerMarker))
  let _ ← sys (.rmdir name)

/-- What the functions behind `rymga_platform.h` differ in from system to
system: the size of a path buffer, the paths the system can be asked about, and
how a temporary directory is made. -/
structure Platform where
  pathMax : Nat
  reaches : Bytes → Bool
  makeTempDirectory : Bytes → Os (Option Name)

namespace Platform

variable (platform : Platform)

/-- The system can be asked about this file of a temporary directory. -/
def reachesFile (runtimeDirectory : Bytes) (name file : Name) : Bool :=
  platform.reaches (slashed (slashed runtimeDirectory name) file)

/-- `rymga_platform_create_file`. -/
def createFile (runtimeDirectory : Bytes) (name file : Name) :
    Os OpenResult :=
  if platform.reachesFile runtimeDirectory name file then
    sys (.openExcl (.path name file))
  else return .failed

/-- `rymga_platform_rename`. -/
def rename (runtimeDirectory : Bytes) (name source target : Name) :
    Os Bool :=
  if platform.reachesFile runtimeDirectory name source &&
      platform.reachesFile runtimeDirectory name target then
    sys (.rename name source target)
  else return false

/-- `rymga_platform_remove_file`, with whether the file is gone. -/
def removeFile (runtimeDirectory : Bytes) (name file : Name) : Os Bool :=
  if platform.reachesFile runtimeDirectory name file then
    sys (.unlink (.path name file))
  else return false

/-- `rymga_platform_remove_directory`. -/
def removeDirectory (runtimeDirectory : Bytes) (name : Name) : Os Unit := do
  if (slashed (slashed runtimeDirectory name) ownerMarker).length <
      platform.pathMax then
    let _ ← platform.removeFile runtimeDirectory name ownerMarker
  if platform.reaches (slashed runtimeDirectory name) then
    let _ ← sys (.rmdir name)

end Platform

/-- `rymga_platform_posix.c` hands every path to the system as it is. -/
def posix : Platform where
  pathMax := pathMax
  reaches _ := true
  makeTempDirectory := makeTempDirectory

section

variable {runtimeDirectory : Bytes} {name file source target : Name}

@[simp] theorem posix_pathMax : posix.pathMax = pathMax := rfl

@[simp] theorem posix_makeTempDirectory :
    posix.makeTempDirectory = makeTempDirectory := rfl

@[simp] theorem posix_createFile :
    posix.createFile runtimeDirectory name file =
      sys (.openExcl (.path name file)) := rfl

@[simp] theorem posix_rename :
    posix.rename runtimeDirectory name source target =
      sys (.rename name source target) := rfl

@[simp] theorem posix_removeFile :
    posix.removeFile runtimeDirectory name file =
      sys (.unlink (.path name file)) := rfl

@[simp] theorem posix_removeDirectory :
    posix.removeDirectory runtimeDirectory name =
      removeDirectory runtimeDirectory name := rfl

end

def intMax : Int := 2147483647

/-- What `stale_owned_directory` requires of the marker it read. -/
def ownerRecord (name : Name) (content : Bytes) : Option (Int × Int) :=
  match scanOwner content with
  | some (pid, created, markedName) =>
      if markedName = name ∧ 0 < pid ∧ pid ≤ intMax ∧ 0 ≤ created then
        some (pid, created)
      else none
  | none => none

/-- The marker of an open directory, when it is a private regular file that
was read completely. -/
def readMarker (place : Place) (capacity : Nat) : Os (Option Bytes) := do
  match ← sys (.openRead place) with
  | none => return none
  | some marker =>
      match ← sys (.read marker capacity) with
      | none => return none
      | some content =>
          if content = [] then return none
          match ← sys (.fstat marker) with
          | none => return none
          | some info =>
              if info.mode.regular && info.mode.owned && !info.mode.shared &&
                  info.size = content.length then
                return some content
              else return none

/-- The loop over the entries of a directory under examination: the name of
the one JAR, empty when there is none. -/
def staleEntries (directory : Nat) : Name → List Name → Os (Option Name)
  | jar, [] => do
      sys (.endScan (some directory))
      return some jar
  | jar, entry :: entries => do
      if entry = [0x2E] ∨ entry = [0x2E, 0x2E] ∨ entry = ownerMarker then
        staleEntries directory jar entries
      else
        match ← sys (.fstatat (.at directory entry)) with
        | none => return none
        | some info =>
            if !(info.mode.regular && info.mode.owned &&
                !info.mode.writable) then return none
            else if entry = artifactPart then staleEntries directory jar entries
            else if !jarName entry || jar ≠ [] then return none
            else staleEntries directory (entry.take 255) entries

def staleOwnedDirectory (name : Name) (maxAgeSeconds : Int) :
    Os (Option Name) := do
  match ← sys (.openDirectory name) with
  | none => return none
  | some directory =>
      match ← sys (.statDirectory directory) with
      | none => return none
      | some mode =>
          if !mode.owned || mode.shared then return none
          match ← readMarker (.at directory ownerMarker) 159 with
          | none => return none
          | some content =>
              match ownerRecord name content with
              | none => return none
              | some (pid, created) =>
                  let now ← sys .time
                  if created > now.toInt ∨
                      now.toInt - created < maxAgeSeconds then return none
                  match ← sys (.kill pid) with
                  | .delivered | .notPermitted => return none
                  | .noSuchProcess =>
                      match ← sys (.scan (some directory)) with
                      | none => return none
                      | some names => staleEntries directory [] names

/-- The deletions for one stale directory. -/
def reclaim (name jar : Name) : Os Unit := do
  match ← sys (.openDirectory name) with
  | none => return ()
  | some directory =>
      if jar ≠ [] then
        let _ ← sys (.unlink (.at directory jar))
      let _ ← sys (.unlink (.at directory artifactPart))
      let _ ← sys (.unlink (.at directory ownerMarker))
      let _ ← sys (.rmdirAt name)

def cleanupEntries (maxAgeSeconds : Int) : Nat → List Name → Os Unit
  | _, [] => return ()
  | checked, entry :: entries => do
      if checked < 256 then
        if tempName entry then
          match ← staleOwnedDirectory entry maxAgeSeconds with
          | none => cleanupEntries maxAgeSeconds (checked + 1) entries
          | some jar =>
              reclaim entry jar
              cleanupEntries maxAgeSeconds (checked + 1) entries
        else cleanupEntries maxAgeSeconds checked entries
      else return ()

/-- `rymga_platform_cleanup_stale`. -/
def cleanupStale (maxAgeSeconds : Int) : Os Unit := do
  if maxAgeSeconds < 1 then return ()
  if !(← sys .directoryOk) then return ()
  if !(← sys .openRoot) then return ()
  if !(← sys .duplicate) then return ()
  match ← sys (.scan none) with
  | none => return ()
  | some names => cleanupEntries maxAgeSeconds 0 names

end RymgaLoader.Native
