import RymgaLoader.Lib.Unicode
import RymgaLoader.Native.Platform
import RymgaLoader.Native.PluginMarkers

/-!
# Plugins of the platform layer

The functions of `rymga_platform_posix.c` and `rymga_platform_windows.c` that
publish a plugin in a private plugin directory, release it and clean up after
processes that did neither.  The shared directory is the plugin directory, and
an empty name stands for an empty path.
-/

namespace RymgaLoader.Native

/-- The identity of a file whose mode is acceptable. -/
def fileIdentity (accepts : Mode → Bool) (name : Name) :
    Os (Option (Nat × Nat)) := do
  match ← sys (.fstatat (.top name)) with
  | none => return none
  | some info =>
      if accepts info.mode then return some (info.volume, info.inode)
      else return none

/-- The regular files of the user. -/
def Mode.ownRegular (mode : Mode) : Bool := mode.regular && mode.owned

/-- `file_identity_at`. -/
def fileIdentityAt (name : Name) : Os (Option (Nat × Nat)) :=
  fileIdentity Mode.ownRegular name

/-- Remove an entry that leads to the file with this identity. -/
def removeSame (accepts : Mode → Bool) (identity : Nat × Nat) (name : Name) :
    Os Unit := do
  if (← fileIdentity accepts name) = some identity then
    let _ ← sys (.unlink (.top name))

def deadProcess (pid : Int) : Os Bool := do
  if pid ≤ 0 ∨ intMax < pid then return false
  match ← sys (.kill pid) with
  | .noSuchProcess => return true
  | .delivered | .notPermitted => return false

def parsePluginMarker (markerName : Name) : Os (Option PluginRecord) := do
  match ← readMarker (.top markerName) 799 with
  | none => return none
  | some content =>
      match scanPlugin content with
      | none => return none
      | some (pid, created, volume, file, hex) =>
          if created < 0 then return none
          if !(← deadProcess pid) then return none
          return (markedFilename hex).map fun filename =>
            ⟨volume, file, filename⟩

/-- The scan for the files a marker vouches for. -/
def removeCandidates (accepts : Mode → Bool) (wanted : Name → Bool)
    (identity : Nat × Nat) : List Name → Os Unit
  | [] => sys (.endScan none)
  | candidate :: candidates => do
      if wanted candidate then removeSame accepts identity candidate
      removeCandidates accepts wanted identity candidates

/-- Where the platforms differ: which entries are examined as markers, how a
marker is read, and how its files are removed; `false` keeps the marker. -/
structure PluginCleaner where
  examines : Name → Os Bool
  parse : Name → Os (Option PluginRecord)
  sweep : PluginRecord → Os Bool

/-- Drop a marker once its files are dealt with. -/
def PluginCleaner.settle (cleaner : PluginCleaner) (markerName : Name) :
    Os Unit := do
  match ← cleaner.parse markerName with
  | none => return ()
  | some record =>
      if ← cleaner.sweep record then
        let _ ← sys (.unlink (.top markerName))

def PluginCleaner.markers (cleaner : PluginCleaner) :
    Nat → List Name → Os Unit
  | _, [] => return ()
  | checked, entry :: entries => do
      if checked < 256 then
        if ← cleaner.examines entry then
          cleaner.settle entry
          cleaner.markers (checked + 1) entries
        else cleaner.markers checked entries
      else return ()

/-- The cleanup of `rymga_platform_posix.c`. -/
def posixCleaner : PluginCleaner where
  examines entry := return pluginMarkerName entry
  parse := parsePluginMarker
  sweep record := do
    match ← sys (.scan none) with
    | none => return false
    | some candidates =>
        removeCandidates Mode.ownRegular
          (fun candidate => candidate = record.filename ||
            pluginPartialName candidate)
          (record.volume, record.file) candidates
        return true

/-- `rymga_platform_cleanup_plugins`. -/
def cleanupPlugins : Os Unit := do
  if !(← sys .directoryOk) then return ()
  if !(← sys .openRoot) then return ()
  if !(← sys .duplicate) then return ()
  match ← sys (.scan none) with
  | none => return ()
  | some entries => posixCleaner.markers 0 entries

/-- `rymga_platform_release_plugin`. -/
def releasePlugin (plugin : Plugin) : Os Unit := do
  if plugin.destination ≠ [] then
    removeSame Mode.regular (plugin.volumeId, plugin.fileId) plugin.destination
  if plugin.anchor ≠ [] then
    removeSame Mode.regular (plugin.volumeId, plugin.fileId) plugin.anchor
  if plugin.marker ≠ [] then
    let _ ← sys (.unlink (.top plugin.marker))

def markerNameOf (random : Bytes) : Name :=
  markerStem ++ Hex.encode random ++ markerEnding

/-- What a path buffer keeps of the name of a file in the plugin directory. -/
def fitted (pluginDirectory : Bytes) (name : Name) : Name :=
  ((slashed pluginDirectory name).take (pathMax - 1)).drop
    (pluginDirectory.length + 1)

/-- Write a text that fits the buffer it was printed into. -/
def writeFitting (marker : FileRef) (content : Bytes) : Os Bool := do
  if content.length < 800 then writeAll marker content else return false

/-- Write a marker that was just created, or remove it again. -/
def writePluginMarker (marker : FileRef) (name filename : Name)
    (volume file : Nat) : Os Bool := do
  let pid ← sys .getpid
  let now ← sys .time
  let written ← writeFitting marker (pluginText pid now volume file filename)
  let synced ← if written then sys (.fsync marker) else pure false
  let closed ← sys .close
  if synced && closed then return true
  else
    let _ ← sys (.unlink (.top name))
    return false

/-- The attempts of `create_plugin_marker`, with the name left in its path. -/
def markerAttempts (pluginDirectory : Bytes) (filename : Name)
    (volume file : Nat) : Nat → Name → Os (Bool × Name)
  | 0, path => return (false, path)
  | attempts + 1, _ => do
      let random ← sys (.random 16)
      let name := markerNameOf random
      let path := fitted pluginDirectory name
      if (slashed pluginDirectory name).length ≥ pathMax then
        return (false, path)
      match ← sys (.openExcl (.top name)) with
      | .occupied =>
          markerAttempts pluginDirectory filename volume file attempts path
      | .failed => return (false, path)
      | .opened marker =>
          let ok ← writePluginMarker marker name filename volume file
          return (ok, path)

def createPluginMarker (pluginDirectory : Bytes) (filename : Name)
    (volume file : Nat) : Os (Bool × Name) :=
  markerAttempts pluginDirectory filename volume file 128 []

/-- The inner loop of the copy, with the signals still to come; every round
takes a signal or writes a byte.  `none` is a failed write. -/
def writeChunk (output : FileRef) : Nat → Nat → Bytes → Os (Option Nat)
  | _, interruptions, [] => return some interruptions
  | 0, _, _ :: _ => return none
  | rounds + 1, interruptions, bytes => do
      match ← sys (.writeOutput interruptions output bytes) with
      | .interrupted => writeChunk output rounds (interruptions - 1) bytes
      | .failed | .completed 0 => return none
      | .completed (written + 1) =>
          writeChunk output rounds interruptions (bytes.drop (written + 1))

/-- The copy of what is left of the input; every round takes a signal or a
byte, or is the last. -/
def copyRounds (output : FileRef) : Nat → Nat → Bytes → Os Bool
  | 0, _, _ => return false
  | rounds + 1, interruptions, rest => do
      match ← sys (.readInput interruptions rest) with
      | .interrupted => copyRounds output rounds (interruptions - 1) rest
      | .failed => return false
      | .completed [] => return true
      | .completed (byte :: bytes) =>
          match ← writeChunk output (interruptions + (bytes.length + 1))
              interruptions (byte :: bytes) with
          | none => return false
          | some interruptions =>
              copyRounds output rounds interruptions
                (rest.drop (bytes.length + 1))

def copyInput (interruptions : Nat) (output : FileRef) (source : Bytes) :
    Os Bool :=
  copyRounds output (interruptions + source.length + 1) interruptions source

/-- The failure block of `rymga_platform_materialize_plugin`. -/
def undoPlugin (filename partialName marker : Name) (identity : Nat × Nat) :
    Os (Option Plugin) := do
  let _ ← sys (.unlink (.top partialName))
  if marker ≠ [] then
    let _ ← sys (.unlink (.top marker))
  removeSame Mode.ownRegular identity filename
  return none

/-- The marker and the link, once the copy is complete. -/
def publishPlugin (pluginDirectory : Bytes) (filename partialName : Name) :
    Os (Option Plugin) := do
  match ← fileIdentityAt partialName with
  | none => undoPlugin filename partialName [] (0, 0)
  | some (volume, file) =>
      sys (.note file)
      let (marked, marker) ←
        createPluginMarker pluginDirectory filename volume file
      let linked ← if marked then sys (.link partialName filename)
        else pure false
      if linked then return some ⟨filename, marker, partialName, volume, file⟩
      else undoPlugin filename partialName marker (volume, file)

/-- The copy of the source into the file just made. -/
def copySource (interruptions : Nat) (output : FileRef) (source : Bytes) :
    Os Bool := do
  let restricted ← sys .chmod
  let copied ← if restricted then copyInput interruptions output source
    else pure false
  let synced ← if copied then sys (.fsync output) else pure false
  let closed ← sys .close
  return synced && closed

/-- What follows the cleanup. -/
def copyPlugin (interruptions : Nat) (pluginDirectory : Bytes)
    (filename : Name) (source : Bytes) : Os (Option Plugin) := do
  if (slashed pluginDirectory filename).length ≥ pathMax ∨
      (slashed pluginDirectory partialStem).length + 6 ≥ pathMax then
    return none
  let directory ← sys .openRoot
  let input ← sys .openInput
  match ← sys .mkstemp with
  | none => return none
  | some (partialName, output) =>
      if !(directory && input) then
        let _ ← sys .close
        let _ ← sys (.unlink (.top partialName))
        return none
      if ← copySource interruptions output source then
        publishPlugin pluginDirectory filename partialName
      else undoPlugin filename partialName [] (0, 0)

/-- `rymga_platform_materialize_plugin` for a source file with this name and
content, during whose copy this many signals arrive. -/
def materializePlugin (interruptions : Nat) (pluginDirectory : Bytes)
    (filename : Name) (source : Bytes) : Os (Option Plugin) := do
  if !(← sys .directoryOk) then return none
  cleanupPlugins
  copyPlugin interruptions pluginDirectory filename source

namespace Windows

/-- `RYMGA_PLATFORM_PATH_MAX` on Windows. -/
def pathMax : Nat := 32768

/-- `wide` accepts the path. -/
def wide (path : Bytes) : Bool :=
  match Unicode.decode path with
  | some scalars => (Unicode.utf16Encode scalars).length + 1 < pathMax
  | none => false

/-- The path of an entry of the plugin directory can be written down. -/
def opens (pluginDirectory : Bytes) (name : Name) : Bool :=
  (slashed pluginDirectory name).length < pathMax &&
    wide (slashed pluginDirectory name)

def partialEnding : Name := ascii ['.', 'p', 'a', 'r', 't']

def pluginPartialName (name : Name) : Bool :=
  name.length = partialStem.length + 32 + partialEnding.length ∧
    name.take partialStem.length = partialStem ∧
    name.drop (name.length - partialEnding.length) = partialEnding ∧
    ((name.drop partialStem.length).take 32).all lowerHex

def processIsAlive (pid : Int) : Os Bool := do
  match ← sys (.openProcess pid) with
  | .failed => return false
  | .accessDenied => return true
  | .opened =>
      match ← sys (.exitCode pid) with
      | none => return true
      | some code => return code = stillActive

/-- `%lu` into an `unsigned long` of 32 bits. -/
def scanPid (input : Bytes) : Option (Int × Bytes) :=
  (Scan.scanUnsigned input).map fun (pid, rest) =>
    (((pid % 2 ^ 32 : Nat) : Int), rest)

def scanPlugin (content : Bytes) : Option (Int × Int × Nat × Nat × Bytes) :=
  scanPluginWith scanPid content

def markedFilename (hex : Bytes) : Option Name :=
  decodedName (fun bytes => (Unicode.decode (cString bytes)).isSome)
    (Hex.decode Hex.lowerValue hex)

def pluginRecord (content : Bytes) : Option (Int × PluginRecord) :=
  pluginRecordWith scanPlugin markedFilename content

/-- A marker that is a regular file and fits the buffer, read completely. -/
def readMarker (place : Place) (capacity : Nat) : Os (Option Bytes) := do
  match ← sys (.openRead place) with
  | none => return none
  | some marker =>
      match ← sys (.fstat marker) with
      | none => return none
      | some info =>
          if !(info.mode.regular && 0 < info.size &&
              info.size < capacity) then
            return none
          match ← sys (.read marker info.size) with
          | none => return none
          | some content =>
              if content.length = info.size then return some content
              else return none

def parsePluginMarker (pluginDirectory : Bytes) (markerName : Name) :
    Os (Option PluginRecord) := do
  if !opens pluginDirectory markerName then return none
  match ← readMarker (.top markerName) 800 with
  | none => return none
  | some content =>
      match scanPlugin content with
      | none => return none
      | some (pid, created, volume, file, hex) =>
          if pid = 0 ∨ created < 0 then return none
          if ← processIsAlive pid then return none
          return (markedFilename hex).map fun filename =>
            ⟨volume, file, filename⟩

def removeDestination (pluginDirectory : Bytes) (record : PluginRecord) :
    Os Unit := do
  if opens pluginDirectory record.filename then
    removeSame Mode.regular (record.volume, record.file) record.filename

/-- The cleanup of `rymga_platform_windows.c`. -/
def cleaner (pluginDirectory : Bytes) : PluginCleaner where
  examines entry := do
    if !Native.pluginMarkerName entry then return false
    match ← sys (.fstatat (.top entry)) with
    | none => return false
    | some info => return info.mode.regular
  parse := parsePluginMarker pluginDirectory
  sweep record := do
    removeDestination pluginDirectory record
    match ← sys (.scan none) with
    | none => return true
    | some candidates =>
        removeCandidates Mode.regular
          (fun candidate => pluginPartialName candidate &&
            opens pluginDirectory candidate)
          (record.volume, record.file) candidates
        return true

def cleanupPlugins (pluginDirectory : Bytes) : Os Unit := do
  if !(← sys .directoryOk) then return ()
  if !opens pluginDirectory [0x2A] then return ()
  match ← sys (.scan none) with
  | none => return ()
  | some entries => (cleaner pluginDirectory).markers 0 entries

end Windows

end RymgaLoader.Native
