import RymgaLoader.Native.Filenames
import RymgaLoader.Native.WindowsHex

/-!
# Temporary directories and markers on Windows

The functions of `rymga_platform_windows.c` that create, remove and reclaim the
temporary directories of acquisitions, and those that write markers.  A path
that leads into a temporary directory is looked up anew by every call.
-/

namespace RymgaLoader.Native.Windows

open Scan

/-- `RLP1 %lu %lld %llu %llu %s`. -/
def pluginText (pid : Nat) (created : Int64) (volume file : Nat)
    (hex : Bytes) : Bytes :=
  ascii ['R', 'L', 'P', '1'] ++ 0x20 :: (decimal pid ++ 0x20 ::
    (printSigned created.toInt ++ 0x20 :: (decimal volume ++ 0x20 ::
      (decimal file ++ 0x20 :: (hex ++ [0x0A])))))

/-- `RLL1 %lu %lld %s`. -/
def ownerText (pid : Nat) (created : Int64) (name : Name) : Bytes :=
  ascii ['R', 'L', 'L', '1', ' '] ++ decimal pid ++ 0x20 ::
    (printSigned created.toInt ++ 0x20 :: (name ++ [0x0A]))

/-- The `sscanf` of `stale_owned_directory`, when it converts three items. -/
def scanOwner (content : Bytes) : Option (Int × Int × Name) :=
  scanOwnerWith scanPid content

/-- The part of a path `create_marker` takes for a name: what follows the last
slash or backslash. -/
def baseName (path : Bytes) : Bytes :=
  let forward := strrchr path 0x2F
  let name := match strrchr path 0x5C, forward with
    | none, forward => forward
    | some backward, none => some backward
    | some backward, some forward =>
        if backward.length < forward.length then some backward
        else some forward
  match name with
  | none => path
  | some found => found.drop 1

/-- One `WriteFile` for the whole text, and `FlushFileBuffers`. -/
def writeWhole (marker : FileRef) (content : Bytes) : Os Bool := do
  if (← sys (.write marker content)) = some content.length then
    sys (.fsync marker)
  else return false

/-- A marker that was not written completely is removed again. -/
def closeMarker (place : Place) (written : Bool) : Os Bool := do
  let closed ← sys .close
  if written && closed then return true
  else
    let _ ← sys (.unlink place)
    return false

def createMarker (runtimeDirectory : Bytes) (name : Name) : Os Bool := do
  let path := slashed runtimeDirectory name
  let pid ← sys .getpid
  let now ← sys .time
  let content := ownerText pid now (baseName path)
  if content.length ≥ 160 ∨ !opens path ownerMarker then return false
  match ← sys (.openExcl (.path name ownerMarker)) with
  | .opened marker =>
      let written ← writeWhole marker content
      closeMarker (.path name ownerMarker) written
  | _ =>
      let _ ← sys (.unlink (.path name ownerMarker))
      return false

/-- The attempts of `rymga_platform_make_temp_directory`. -/
def tempAttempts (runtimeDirectory : Bytes) : Nat → Os (Option Name)
  | 0 => return none
  | attempts + 1 => do
      let random ← sys (.random 16)
      let name := tempStem ++ Hex.encode random
      if !opens runtimeDirectory name then return none
      match ← sys (.createDirectory name) with
      | .occupied => tempAttempts runtimeDirectory attempts
      | .failed => return none
      | .created =>
          let ready ← if ← sys .directoryOk then
              createMarker runtimeDirectory name
            else pure false
          if ready then return some name
          else
            let _ ← sys (.rmdir name)
            return none

/-- `rymga_platform_make_temp_directory`, returning the name it made. -/
def makeTempDirectory (runtimeDirectory : Bytes) : Os (Option Name) :=
  tempAttempts runtimeDirectory 128

/-- Every path is converted by `wide`.  A `DeleteFileW` that is refused, or
only marks a file that is still open, leaves the entry and has failed. -/
def windows : Platform where
  pathMax := pathMax
  reaches := wide
  makeTempDirectory := makeTempDirectory

/-- What `stale_owned_directory` requires of the marker it read. -/
def ownerRecord (name : Name) (content : Bytes) : Option (Int × Int) :=
  match scanOwner content with
  | some (pid, created, markedName) =>
      if markedName = name ∧ pid ≠ 0 ∧ 0 ≤ created then some (pid, created)
      else none
  | none => none

/-- The attributes come with the listing: an entry that is gone by now counts
as what it was listed as. -/
def listedAs (place : Place) (attributes : Mode → Bool) : Os Bool := do
  match ← sys (.fstatat place) with
  | none => return true
  | some info => return attributes info.mode

/-- `WideCharToMultiByte` into a buffer of 256 bytes. -/
def copies (entry : Name) : Bool :=
  entry.length < 256 && (Unicode.decode entry).isSome

/-- The loop over the entries of a directory under examination: the name of
the one JAR, empty when there is none. -/
def staleEntries (directory : Nat) : Name → List Name → Os (Option Name)
  | jar, [] => do
      sys (.endScan (some directory))
      return some jar
  | jar, entry :: entries => do
      if entry = [0x2E] ∨ entry = [0x2E, 0x2E] ∨ entry = ownerMarker then
        staleEntries directory jar entries
      else if !(← listedAs (.at directory entry) Mode.regular) then
        return none
      else if entry = artifactPart then staleEntries directory jar entries
      else if !jarName entry || jar ≠ [] || !copies entry then return none
      else staleEntries directory entry entries

/-- `FindFirstFileW` and `FindNextFileW` in a directory. -/
def staleContents (name : Name) : Os (Option Name) := do
  match ← sys (.openDirectory name) with
  | none => return none
  | some directory =>
      match ← sys (.scan (some directory)) with
      | none => return none
      | some names => staleEntries directory [] names

/-- `rymga_platform_runtime_directory_ok` of a temporary directory. -/
def temporaryOk (path : Bytes) (name : Name) : Os Bool := do
  if !wide path then return false
  match ← sys (.openDirectory name) with
  | none => return false
  | some directory =>
      match ← sys (.statDirectory directory) with
      | none => return false
      | some mode => return mode.owned && !mode.writable

def staleOwnedDirectory (runtimeDirectory : Bytes) (name : Name)
    (maxAgeSeconds : Int) : Os (Option Name) := do
  let path := slashed runtimeDirectory name
  if !(← temporaryOk path name) then return none
  if !(opens path ownerMarker && opens path [0x2A]) then return none
  match ← readMarker (.path name ownerMarker) 160 with
  | none => return none
  | some content =>
      match ownerRecord name content with
      | none => return none
      | some (pid, created) =>
          let now ← sys .time
          if now < 0 ∨ created > now.toInt ∨
              now.toInt - created < maxAgeSeconds then return none
          if ← processIsAlive pid then return none
          staleContents name

/-- The name of the JAR of a stale directory whose path fits the buffer. -/
def staleJar (runtimeDirectory : Bytes) (name : Name) (maxAgeSeconds : Int) :
    Os (Option Name) :=
  if (slashed runtimeDirectory name).length < pathMax then
    staleOwnedDirectory runtimeDirectory name maxAgeSeconds
  else return none

/-- A file is only deleted if its path fits the buffer. -/
def deleteFitting (runtimeDirectory : Bytes) (name file : Name) :
    Os Unit := do
  if (slashed (slashed runtimeDirectory name) file).length < pathMax then
    let _ ← windows.removeFile runtimeDirectory name file

/-- The deletions for one stale directory. -/
def reclaim (runtimeDirectory : Bytes) (name jar : Name) : Os Unit := do
  if jar ≠ [] then deleteFitting runtimeDirectory name jar
  deleteFitting runtimeDirectory name artifactPart
  windows.removeDirectory runtimeDirectory name

def cleanupEntries (runtimeDirectory : Bytes) (maxAgeSeconds : Int) :
    Nat → List Name → Os Unit
  | _, [] => return ()
  | checked, entry :: entries => do
      if checked < 256 then
        if !tempName entry then
          cleanupEntries runtimeDirectory maxAgeSeconds checked entries
        else if !(← listedAs (.top entry) (!·.regular)) then
          cleanupEntries runtimeDirectory maxAgeSeconds checked entries
        else
          match ← staleJar runtimeDirectory entry maxAgeSeconds with
          | none =>
              cleanupEntries runtimeDirectory maxAgeSeconds (checked + 1)
                entries
          | some jar =>
              reclaim runtimeDirectory entry jar
              cleanupEntries runtimeDirectory maxAgeSeconds (checked + 1)
                entries
      else return ()

/-- `rymga_platform_cleanup_stale`. -/
def cleanupStale (runtimeDirectory : Bytes) (maxAgeSeconds : Int) :
    Os Unit := do
  if maxAgeSeconds < 1 then return ()
  if !(← sys .directoryOk) then return ()
  if !opens runtimeDirectory [0x2A] then return ()
  match ← sys (.scan none) with
  | none => return ()
  | some names => cleanupEntries runtimeDirectory maxAgeSeconds 0 names

/-- What a path buffer keeps of the name of a file in the plugin directory. -/
def fitted (pluginDirectory : Bytes) (name : Name) : Name :=
  ((slashed pluginDirectory name).take (pathMax - 1)).drop
    (pluginDirectory.length + 1)

/-- Write a plugin marker that was just created, or remove it again. -/
def writePluginMarker (marker : FileRef) (name : Name) (volume file : Nat)
    (hex : Bytes) : Os Bool := do
  let pid ← sys .getpid
  let now ← sys .time
  let content := pluginText pid now volume file hex
  let written ← if content.length < 800 then writeWhole marker content
    else pure false
  closeMarker (.top name) written

/-- The attempts of `create_plugin_marker`, with the name left in its path. -/
def markerAttempts (pluginDirectory : Bytes) (volume file : Nat)
    (hex : Bytes) : Nat → Name → Os (Bool × Name)
  | 0, path => return (false, path)
  | attempts + 1, _ => do
      let random ← sys (.random 16)
      let name := markerNameOf random
      let path := fitted pluginDirectory name
      if !opens pluginDirectory name then return (false, path)
      match ← sys (.openExcl (.top name)) with
      | .occupied =>
          markerAttempts pluginDirectory volume file hex attempts path
      | .failed => return (false, path)
      | .opened marker =>
          let ok ← writePluginMarker marker name volume file hex
          return (ok, path)

/-- `create_plugin_marker`, with what its buffer for the digits contained. -/
def createPluginMarker (pluginDirectory : Bytes) (filename : Name)
    (volume file : Nat) (buffer : Bytes) :
    Except Fault (Os (Bool × Name)) := do
  let digits ← hexEncode filename filename.length buffer
  return markerAttempts pluginDirectory volume file (cString digits) 128 []

end RymgaLoader.Native.Windows
