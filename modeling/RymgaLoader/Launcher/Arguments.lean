import RymgaLoader.Launcher.CommandLine
import RymgaLoader.Protocol.Fields

/-!
# The arguments of the two launchers

`main` of `rymga_loader.c` and `wmain` of `rymga_loader_windows.c` from the
argument vector up to the array that is handed to the child.  Every access to
an array is checked, so that one out of bounds is a fault of the model.  The
creation of directories, the license and the acquisition stand between the two
parts and are left out; a runtime directory that was not given is `none`.  The
system limits an argument vector far below the range of an `int`.
-/

namespace RymgaLoader.Launcher

open WindowsArguments

inductive Fault where
  | outOfBounds
  | nullPointer
  | endless
  deriving DecidableEq, Repr

/-- An array of pointers to strings. -/
abbrev Strings := List (Option Bytes)

def load (array : Strings) (index : Nat) : Except Fault (Option Bytes) :=
  match array[index]? with
  | none => .error .outOfBounds
  | some entry => .ok entry

/-- The string behind an entry, as `strcmp` reads it. -/
def loadText (array : Strings) (index : Nat) : Except Fault Bytes := do
  match ← load array index with
  | none => .error .nullPointer
  | some text => .ok text

def put (array : Strings) (index : Nat) (entry : Option Bytes) :
    Except Fault Strings :=
  if index < array.length then .ok (array.set index entry)
  else .error .outOfBounds

/-- The next entry of an array that is filled from its front. -/
def store {α : Type} (capacity : Nat) (stored : List α) (value : α) :
    Except Fault (List α) :=
  if stored.length < capacity then .ok (stored ++ [value])
  else .error .outOfBounds

def maxKeys : Nat := 16
def maxJvmArgs : Nat := 64

/-- The variables of the option loop. -/
structure Options where
  endpoint : Option Bytes := none
  product : Option Bytes := none
  channel : Option Bytes := none
  program : Option Bytes := none
  pluginDirectory : Option Bytes := none
  keyId : Option Bytes := none
  keyHex : Option Bytes := none
  installationId : Bytes := ascii "local".toList
  runtimeDirectory : Option Bytes := none
  caBundle : Option Bytes := none
  keys : List (Bytes × Bytes) := []
  jvmArgs : List Bytes := []
  licenseStdin : Bool := false
  deriving DecidableEq, Repr

/-- The pair of `--key-id` behind the trusted ones. -/
def Options.storeKey (options : Options) :
    Except Fault (List (Bytes × Bytes)) :=
  match options.keyId, options.keyHex with
  | some keyId, some keyHex => store maxKeys options.keys (keyId, keyHex)
  | some _, none => .error .nullPointer
  | none, _ => .ok options.keys

/-- What a launcher goes on with. -/
structure Parsed where
  preload : Bool
  endpoint : Bytes
  product : Bytes
  channel : Bytes
  program : Bytes
  pluginDirectory : Option Bytes
  installationId : Bytes
  runtimeDirectory : Option Bytes
  caBundle : Option Bytes
  keys : List (Bytes × Bytes)
  jvmArgs : List Bytes
  licenseStdin : Bool
  separator : Nat
  deriving DecidableEq, Repr

namespace Posix

/-- `usage` prints `argv[0]` as a string; then `main` returns 2. -/
def usage {α : Type} (argv : Strings) : Except Fault (Option α) := do
  let _ ← loadText argv 0
  return none

def assign (options : Options) (name value : Bytes) : Option Options :=
  if name = ascii "--endpoint".toList then
    some { options with endpoint := some value }
  else if name = ascii "--product".toList then
    some { options with product := some value }
  else if name = ascii "--channel".toList then
    some { options with channel := some value }
  else if name = ascii "--java".toList then
    some { options with program := some value }
  else if name = ascii "--host".toList then
    some { options with program := some value }
  else if name = ascii "--plugin-dir".toList then
    some { options with pluginDirectory := some value }
  else if name = ascii "--key-id".toList then
    some { options with keyId := some value }
  else if name = ascii "--public-key".toList then
    some { options with keyHex := some value }
  else if name = ascii "--installation-id".toList then
    some { options with installationId := value }
  else if name = ascii "--runtime-dir".toList then
    some { options with runtimeDirectory := some value }
  else if name = ascii "--ca-bundle".toList then
    some { options with caBundle := some value }
  else none

/-- The option loop with the rounds it may take: the variables and the index
after it. -/
def optionLoop (argc : Nat) (argv : Strings) :
    Nat → Nat → Options → Except Fault (Option (Options × Nat))
  | 0, _, _ => .error .endless
  | rounds + 1, index, options =>
      if index < argc then do
        let name ← loadText argv index
        if name = ascii "--".toList then return some (options, index)
        else if name = ascii "--license-stdin".toList then
          optionLoop argc argv rounds (index + 1)
            { options with licenseStdin := true }
        else if name = ascii "--trusted-key".toList then
          if index + 2 ≥ argc ∨ options.keys.length = maxKeys then usage argv
          else
            let keyId ← loadText argv (index + 1)
            let keyHex ← loadText argv (index + 2)
            let keys ← store maxKeys options.keys (keyId, keyHex)
            optionLoop argc argv rounds (index + 3)
              { options with keys := keys }
        else if name = ascii "--jvm-arg".toList then
          if index + 1 ≥ argc ∨ options.jvmArgs.length = maxJvmArgs then
            usage argv
          else
            let argument ← loadText argv (index + 1)
            let jvmArgs ← store maxJvmArgs options.jvmArgs argument
            optionLoop argc argv rounds (index + 2)
              { options with jvmArgs := jvmArgs }
        else if index + 1 ≥ argc then usage argv
        else
          let value ← loadText argv (index + 1)
          match assign options name value with
          | none => usage argv
          | some options => optionLoop argc argv rounds (index + 2) options
      else return some (options, index)

/-- The checks after the loop. -/
def check (argc : Nat) (argv : Strings) (preload : Bool) (options : Options)
    (index : Nat) : Except Fault (Option Parsed) :=
  if (options.keyId.isNone ≠ options.keyHex.isNone) ∨
      (options.keyId.isSome ∧ options.keys.length = maxKeys) then usage argv
  else do
    let keys ← options.storeKey
    match options.endpoint, options.product, options.channel,
        options.program with
    | some endpoint, some product, some channel, some java =>
        if index = argc ∨ keys.length = 0 ∨
            (preload ∧ (options.pluginDirectory.isNone ∨
              options.jvmArgs.length ≠ 0)) then usage argv
        else return some {
          preload := preload
          endpoint := endpoint
          product := product
          channel := channel
          program := java
          pluginDirectory := options.pluginDirectory
          installationId := options.installationId
          runtimeDirectory := options.runtimeDirectory
          caBundle := options.caBundle
          keys := keys
          jvmArgs := options.jvmArgs
          licenseStdin := options.licenseStdin
          separator := index }
    | _, _, _, _ => usage argv

/-- `main` up to the creation of the directories; `none` is a usage error. -/
def parse (argc : Nat) (argv : Strings) : Except Fault (Option Parsed) :=
  if argc < 2 then usage argv
  else do
    let preload := (← loadText argv 1) = ascii "preload".toList
    if ¬preload ∧ (← loadText argv 1) ≠ ascii "run".toList then usage argv
    else
      match ← optionLoop argc argv (argc + 1) 2 {} with
      | none => return none
      | some (options, index) => check argc argv preload options index

end Posix

/-- `utf8`: a string of the system that is well-formed UTF-16. -/
def utf8 (input : Wide) : Option Bytes :=
  (Unicode.utf16Decode input).map Unicode.encode

namespace Windows

/-- `usage` prints a constant text; then `wmain` returns 2. -/
def usage {α : Type} : Except Fault (Option α) := .ok none

def assign (options : Options) (name value : Bytes) : Option Options :=
  if name = ascii "--endpoint".toList then
    some { options with endpoint := some value }
  else if name = ascii "--product".toList then
    some { options with product := some value }
  else if name = ascii "--channel".toList then
    some { options with channel := some value }
  else if name = ascii "--java".toList ∨ name = ascii "--host".toList then
    some { options with program := some value }
  else if name = ascii "--plugin-dir".toList then
    some { options with pluginDirectory := some value }
  else if name = ascii "--key-id".toList then
    some { options with keyId := some value }
  else if name = ascii "--public-key".toList then
    some { options with keyHex := some value }
  else if name = ascii "--installation-id".toList then
    some { options with installationId := value }
  else if name = ascii "--runtime-dir".toList then
    some { options with runtimeDirectory := some value }
  else if name = ascii "--ca-bundle".toList then
    some { options with caBundle := some value }
  else none

def optionLoop (argc : Nat) (argv : Strings) :
    Nat → Nat → Options → Except Fault (Option (Options × Nat))
  | 0, _, _ => .error .endless
  | rounds + 1, index, options =>
      if index < argc then do
        let name ← loadText argv index
        if name = ascii "--".toList then return some (options, index)
        else if name = ascii "--license-stdin".toList then
          optionLoop argc argv rounds (index + 1)
            { options with licenseStdin := true }
        else if name = ascii "--trusted-key".toList then
          if index + 2 ≥ argc ∨ options.keys.length = maxKeys then usage
          else
            let keyId ← loadText argv (index + 1)
            let keyHex ← loadText argv (index + 2)
            let keys ← store maxKeys options.keys (keyId, keyHex)
            optionLoop argc argv rounds (index + 3)
              { options with keys := keys }
        else if name = ascii "--jvm-arg".toList then
          if index + 1 ≥ argc ∨ options.jvmArgs.length = maxJvmArgs then usage
          else
            let argument ← loadText argv (index + 1)
            let jvmArgs ← store maxJvmArgs options.jvmArgs argument
            optionLoop argc argv rounds (index + 2)
              { options with jvmArgs := jvmArgs }
        else if index + 1 ≥ argc then usage
        else
          let value ← loadText argv (index + 1)
          match assign options name value with
          | none => usage
          | some options => optionLoop argc argv rounds (index + 2) options
      else return some (options, index)

def check (argc : Nat) (preload : Bool) (options : Options) (index : Nat) :
    Except Fault (Option Parsed) :=
  if (options.keyId.isNone ≠ options.keyHex.isNone) ∨
      (options.keyId.isSome ∧ options.keys.length = maxKeys) then usage
  else do
    let keys ← options.storeKey
    match options.endpoint, options.product, options.channel,
        options.program with
    | some endpoint, some product, some channel, some program =>
        if index = argc ∨ keys.length = 0 ∨
            (preload ∧ (options.pluginDirectory.isNone ∨
              options.jvmArgs.length ≠ 0)) then usage
        else return some {
          preload := preload
          endpoint := endpoint
          product := product
          channel := channel
          program := program
          pluginDirectory := options.pluginDirectory
          installationId := options.installationId
          runtimeDirectory := options.runtimeDirectory
          caBundle := options.caBundle
          keys := keys
          jvmArgs := options.jvmArgs
          licenseStdin := options.licenseStdin
          separator := index }
    | _, _, _, _ => usage

def parse (argc : Nat) (argv : Strings) : Except Fault (Option Parsed) :=
  if argc < 2 then usage
  else do
    let preload := (← loadText argv 1) = ascii "preload".toList
    if ¬preload ∧ (← loadText argv 1) ≠ ascii "run".toList then usage
    else
      match ← optionLoop argc argv (argc + 1) 2 {} with
      | none => return none
      | some (options, index) => check argc preload options index

/-- The loop that converts the argument vector. -/
def convert (wideArgv : List Wide) :
    Nat → Nat → Strings → Except Fault (Option Strings)
  | 0, _, argv => .ok (some argv)
  | count + 1, index, argv =>
      match wideArgv[index]? with
      | none => .error .outOfBounds
      | some input =>
          match utf8 input with
          | none => .ok none
          | some text => do
              let argv ← put argv index (some text)
              convert wideArgv count (index + 1) argv

/-- `wmain` up to the creation of the directories; a vector that cannot be
converted also ends with status 2. -/
def wmain (wideArgv : List Wide) : Except Fault (Option Parsed) := do
  let argc := wideArgv.length
  match ← convert wideArgv argc 0 (List.replicate argc none) with
  | none => return none
  | some argv => parse argc argv

end Windows

/-- The copying loops: entries of one array to the next places of another. -/
def copy (source : Strings) : Nat → Nat → Strings → Nat → Except Fault Strings
  | 0, _, array, _ => .ok array
  | count + 1, index, array, offset => do
      let entry ← load source index
      let array ← put array offset entry
      copy source count (index + 1) array (offset + 1)

/-- The assignments to the array for the child, which both launchers make in
the same order. -/
def fillChild (parsed : Parsed) (argv : Strings) (userCount : Nat)
    (artifactPath : Bytes) (child : Strings) : Except Fault Strings := do
  let child ← put child 0 (some parsed.program)
  if parsed.preload then
    copy argv userCount (parsed.separator + 1) child 1
  else
    let jvmCount := parsed.jvmArgs.length
    let child ← copy (parsed.jvmArgs.map some) jvmCount 0 child 1
    let child ← put child (jvmCount + 1) (some (ascii "-jar".toList))
    let child ← put child (jvmCount + 2) (some artifactPath)
    copy argv userCount (parsed.separator + 1) child (jvmCount + 3)

/-- `child_argv`, the array for `execv`. -/
def Posix.childArgv (parsed : Parsed) (argc : Nat) (argv : Strings)
    (artifactPath : Bytes) : Except Fault Strings :=
  let appArgc := argc - parsed.separator - 1
  fillChild parsed argv appArgc artifactPath
    (List.replicate
      (appArgc + parsed.jvmArgs.length + if parsed.preload then 2 else 4)
      none)

namespace Windows

/-- `child`, the array for `command_line`. -/
def child (parsed : Parsed) (argc : Nat) (argv : Strings)
    (artifactPath : Bytes) : Except Fault Strings :=
  let userCount := argc - parsed.separator - 1
  let childCount :=
    userCount + parsed.jvmArgs.length + if parsed.preload then 1 else 3
  fillChild parsed argv userCount artifactPath
    (List.replicate childCount none)

/-- The line for `CreateProcessW`; `append_quoted` refuses a null pointer. -/
def command (child : Strings) : Option Wide := do
  commandLine (← child.mapM id)

end Windows

/-- The options of a list of words, and the words from the separator on. -/
def readWords : List Bytes → Options → Option (Options × List Bytes)
  | [], options => some (options, [])
  | name :: words, options =>
      if name = ascii "--".toList then some (options, name :: words)
      else if name = ascii "--license-stdin".toList then
        readWords words { options with licenseStdin := true }
      else if name = ascii "--trusted-key".toList then
        match words with
        | keyId :: keyHex :: words =>
            if options.keys.length < maxKeys then
              readWords words
                { options with keys := options.keys ++ [(keyId, keyHex)] }
            else none
        | _ => none
      else if name = ascii "--jvm-arg".toList then
        match words with
        | argument :: words =>
            if options.jvmArgs.length < maxJvmArgs then
              readWords words
                { options with jvmArgs := options.jvmArgs ++ [argument] }
            else none
        | [] => none
      else
        match words with
        | value :: words =>
            match Posix.assign options name value with
            | none => none
            | some options => readWords words options
        | [] => none

/-- The trusted pairs in their order, and the pair of `--key-id` last. -/
def Options.allKeys (options : Options) : List (Bytes × Bytes) :=
  match options.keyId, options.keyHex with
  | some keyId, some keyHex => options.keys ++ [(keyId, keyHex)]
  | _, _ => options.keys

/-- The keys and the mode allow a launch: the pair of `--key-id` is complete,
there are between 1 and 16 keys, and a host gets a directory for its plugin
and no arguments for a virtual machine. -/
structure Options.Complete (options : Options) (preload : Bool) : Prop where
  paired : options.keyId.isSome = options.keyHex.isSome
  trusted : 0 < options.allKeys.length
  room : options.allKeys.length ≤ maxKeys
  hosted : preload = true →
    options.pluginDirectory.isSome = true ∧ options.jvmArgs = []

instance (options : Options) (preload : Bool) :
    Decidable (options.Complete preload) :=
  decidable_of_iff
    (options.keyId.isSome = options.keyHex.isSome ∧
      0 < options.allKeys.length ∧ options.allKeys.length ≤ maxKeys ∧
      (preload = true →
        options.pluginDirectory.isSome = true ∧ options.jvmArgs = []))
    ⟨fun ⟨paired, trusted, room, hosted⟩ =>
        ⟨paired, trusted, room, hosted⟩,
      fun complete => ⟨complete.paired, complete.trusted, complete.room,
        complete.hosted⟩⟩

/-- What a launcher goes on with, where the options allow it. -/
def Options.finish (options : Options) (preload : Bool) (separator : Nat) :
    Option Parsed :=
  match options.endpoint, options.product, options.channel,
      options.program with
  | some endpoint, some product, some channel, some program =>
      if options.Complete preload then some {
        preload := preload
        endpoint := endpoint
        product := product
        channel := channel
        program := program
        pluginDirectory := options.pluginDirectory
        installationId := options.installationId
        runtimeDirectory := options.runtimeDirectory
        caBundle := options.caBundle
        keys := options.allKeys
        jvmArgs := options.jvmArgs
        licenseStdin := options.licenseStdin
        separator := separator }
      else none
  | _, _, _, _ => none

/-- What a launcher makes of an argument vector; `none` is a usage error. -/
def parseWords (argv : List Bytes) : Option Parsed := do
  let mode ← argv[1]?
  guard (mode = ascii "preload".toList ∨ mode = ascii "run".toList)
  let (options, rest) ← readWords (argv.drop 2) {}
  guard (rest ≠ [])
  options.finish (mode = ascii "preload".toList) (argv.length - rest.length)

/-- The arguments that the child should receive. -/
def Parsed.childArguments (parsed : Parsed) (argv : List Bytes)
    (artifactPath : Bytes) : List Bytes :=
  parsed.program ::
    (if parsed.preload then []
      else parsed.jvmArgs ++ [ascii "-jar".toList, artifactPath]) ++
    argv.drop (parsed.separator + 1)

theorem loadText_eq {argv : List Bytes} {array : Strings} {index : Nat}
    {text : Bytes} (held : argv.map some <+: array)
    (found : argv[index]? = some text) : loadText array index = .ok text := by
  obtain ⟨more, rfl⟩ := held
  have entry : (argv.map some ++ more)[index]? = some (some text) := by
    rw [List.getElem?_append_left, List.getElem?_map, found]
    · rfl
    · rw [List.length_map]
      exact (List.getElem?_eq_some_iff.mp found).1
  simp only [loadText, load, entry]
  rfl

theorem Posix.usage_eq {α : Type} {argv : Strings} {program : Bytes}
    (named : loadText argv 0 = .ok program) :
    Posix.usage argv = (.ok none : Except Fault (Option α)) := by
  rw [Posix.usage, named]
  rfl

theorem Windows.assign_eq : Windows.assign = Posix.assign := by
  funext options name value
  simp only [Windows.assign, Posix.assign, ite_or]

theorem Posix.assign_arrays {options result : Options} {name value : Bytes}
    (assigned : Posix.assign options name value = some result) :
    result.keys = options.keys ∧ result.jvmArgs = options.jvmArgs := by
  revert assigned
  fun_cases Posix.assign options name value <;> rintro ⟨⟩ <;> exact ⟨rfl, rfl⟩

/-- Both arrays have room for what the loop stored. -/
structure Options.Fits (options : Options) : Prop where
  keys : options.keys.length ≤ maxKeys
  jvmArgs : options.jvmArgs.length ≤ maxJvmArgs

@[simp] theorem ok_bind {α β : Type} (value : α) (next : α → Except Fault β) :
    (Except.ok value >>= next) = next value := rfl

theorem store_eq {α : Type} {capacity : Nat} {stored : List α}
    (room : stored.length < capacity) (value : α) :
    store capacity stored value = .ok (stored ++ [value]) := if_pos room

theorem Posix.optionLoop_eq {argv : List Bytes} {array : Strings}
    (held : argv.map some <+: array) {rounds index : Nat} {options : Options}
    (enough : argv.length - index < rounds) (within : index ≤ argv.length)
    {program : Bytes} (named : loadText array 0 = .ok program)
    (fits : options.Fits) :
    Posix.optionLoop argv.length array rounds index options =
      .ok ((readWords (argv.drop index) options).map fun read =>
        (read.1, argv.length - read.2.length)) := by
  induction rounds generalizing index options with
  | zero => omega
  | succ rounds ih =>
      rw [Posix.optionLoop]
      cases words : argv.drop index with
      | nil =>
          have done := List.drop_eq_nil_iff.mp words
          have last : index = argv.length := by omega
          rw [if_neg (by omega), last]
          rfl
      | cons name rest =>
          have length := congrArg List.length words
          rw [List.length_drop, List.length_cons] at length
          have found (offset : Nat) :
              argv[index + offset]? = (name :: rest)[offset]? := by
            rw [← words, List.getElem?_drop]
          have proceed (count : Nat) (next : Options) (further : 0 < count)
              (inside : count ≤ rest.length + 1) (nextFits : next.Fits) :
              Posix.optionLoop argv.length array rounds (index + count) next =
                .ok ((readWords ((name :: rest).drop count) next).map
                  fun read => (read.1, argv.length - read.2.length)) := by
            rw [ih (by omega) (by omega) nextFits, ← words, List.drop_drop]
          have refused :=
            @Posix.usage_eq (Options × Nat) array program named
          have first : loadText array index = .ok name :=
            loadText_eq held (found 0)
          rw [if_pos (by omega), first, readWords.eq_def, ok_bind]
          dsimp only
          split
          · have position : argv.length - (name :: rest).length = index := by
              rw [List.length_cons]
              omega
            rw [Option.map_some, position]
            rfl
          split
          · exact proceed 1 _ (by omega) (by omega) ⟨fits.keys, fits.jvmArgs⟩
          split
          · rcases rest with - | ⟨keyId, - | ⟨keyHex, rest⟩⟩
            · rw [if_pos (Or.inl (by simp at length; omega))]
              exact refused
            · rw [if_pos (Or.inl (by simp at length; omega))]
              exact refused
            · simp only [List.length_cons] at length
              by_cases full : options.keys.length = maxKeys
              · rw [if_pos (Or.inr full)]
                dsimp only
                rw [if_neg (by omega)]
                exact refused
              · have room := Nat.lt_of_le_of_ne fits.keys full
                rw [if_neg (by omega), loadText_eq held (found 1),
                  loadText_eq held (found 2), ok_bind, ok_bind,
                  store_eq room, ok_bind]
                dsimp only
                rw [if_pos room]
                exact proceed 3 _ (by omega) (by simp)
                  ⟨by rw [List.length_append]; exact room, fits.jvmArgs⟩
          split
          · rcases rest with - | ⟨argument, rest⟩
            · rw [if_pos (Or.inl (by simp at length; omega))]
              exact refused
            · simp only [List.length_cons] at length
              by_cases full : options.jvmArgs.length = maxJvmArgs
              · rw [if_pos (Or.inr full)]
                dsimp only
                rw [if_neg (by omega)]
                exact refused
              · have room := Nat.lt_of_le_of_ne fits.jvmArgs full
                rw [if_neg (by omega), loadText_eq held (found 1), ok_bind,
                  store_eq room, ok_bind]
                dsimp only
                rw [if_pos room]
                exact proceed 2 _ (by omega) (by simp)
                  ⟨fits.keys, by rw [List.length_append]; exact room⟩
          · rcases rest with - | ⟨value, rest⟩
            · rw [if_pos (by simp at length; omega)]
              exact refused
            · simp only [List.length_cons] at length
              rw [if_neg (by omega), loadText_eq held (found 1), ok_bind]
              dsimp only
              cases assigned : Posix.assign options name value with
              | none => exact refused
              | some next =>
                  obtain ⟨keys, jvmArgs⟩ := Posix.assign_arrays assigned
                  exact proceed 2 next (by omega) (by simp)
                    ⟨keys ▸ fits.keys, jvmArgs ▸ fits.jvmArgs⟩

/-- The keys that the first check after the loop lets through. -/
theorem Options.storeKey_eq {options : Options} (fits : options.Fits)
    (accepted : ¬((options.keyId.isNone ≠ options.keyHex.isNone) ∨
      (options.keyId.isSome ∧ options.keys.length = maxKeys))) :
    options.keyId.isSome = options.keyHex.isSome ∧
      options.allKeys.length ≤ maxKeys ∧
      options.storeKey = .ok options.allKeys := by
  have room := fits.keys
  unfold allKeys storeKey
  revert accepted
  rcases options.keyId with - | keyId <;>
    rcases options.keyHex with - | keyHex <;> simp [room]
  intro notFull
  have place := Nat.lt_of_le_of_ne room notFull
  exact ⟨place, store_eq place _⟩

theorem Options.not_complete {options : Options} {preload : Bool}
    (refused : (options.keyId.isNone ≠ options.keyHex.isNone) ∨
      (options.keyId.isSome ∧ options.keys.length = maxKeys)) :
    ¬options.Complete preload := by
  rintro ⟨paired, -, room, -⟩
  revert refused paired room
  unfold allKeys
  rcases options.keyId with - | keyId <;>
    rcases options.keyHex with - | keyHex <;> simp
  omega

theorem Posix.check_eq {argc : Nat} {argv : Strings} {options : Options}
    (preload : Bool) {index : Nat} (fits : options.Fits) {program : Bytes}
    (named : loadText argv 0 = .ok program) :
    Posix.check argc argv preload options index =
      .ok (if index = argc then none else options.finish preload index) := by
  unfold Posix.check Options.finish
  rw [@Posix.usage_eq Parsed argv program named]
  split
  · rename_i refused
    have incomplete := @Options.not_complete options preload refused
    split
    · rfl
    split
    · rfl
    · rfl
  · rename_i accepted
    obtain ⟨paired, room, stored⟩ := Options.storeKey_eq fits accepted
    rw [stored, ok_bind]
    split
    · by_cases last : index = argc
      · rw [if_pos (Or.inl last), if_pos last]
      rw [if_neg last]
      by_cases complete : options.Complete preload
      · rw [if_neg, if_pos complete]
        · rfl
        · rintro (same | untrusted | ⟨mode, missing⟩)
          · exact last same
          · exact absurd untrusted (Nat.ne_of_gt complete.trusted)
          · have hosted := complete.hosted mode
            simp [Option.isNone_eq_false_iff.mpr hosted.1, hosted.2] at missing
      · rw [if_pos, if_neg complete]
        by_contra allowed
        simp only [not_or, not_and, ne_eq, not_not] at allowed
        obtain ⟨-, trusted, hosted⟩ := allowed
        refine complete ⟨paired, Nat.pos_of_ne_zero trusted, room, ?_⟩
        intro mode
        simpa [Option.isSome_iff_ne_none] using hosted mode
    · simp

/-- What was stored fits the arrays, and the rest is empty or starts with the
separator. -/
theorem readWords_spec {words rest : List Bytes} {options result : Options}
    (read : readWords words options = some (result, rest))
    (fits : options.Fits) :
    result.Fits ∧ rest <:+ words ∧
      ∀ first ∈ rest.head?, first = ascii "--".toList := by
  fun_induction readWords words options with
  | case1 options =>
      cases read
      exact ⟨fits, List.suffix_rfl, nofun⟩
  | case2 words options =>
      cases read
      refine ⟨fits, List.suffix_rfl, ?_⟩
      intro first head
      exact (Option.some.inj head).symm
  | case3 words options _ ih =>
      obtain ⟨resultFits, after, head⟩ := ih read ⟨fits.keys, fits.jvmArgs⟩
      exact ⟨resultFits, after.trans (List.suffix_cons _ _), head⟩
  | case4 options keyId keyHex words room _ _ ih =>
      obtain ⟨resultFits, after, head⟩ := ih read
        ⟨by rw [List.length_append]; exact room, fits.jvmArgs⟩
      exact ⟨resultFits, after.trans ⟨[_, keyId, keyHex], rfl⟩, head⟩
  | case7 options argument words room _ _ _ ih =>
      obtain ⟨resultFits, after, head⟩ := ih read
        ⟨fits.keys, by rw [List.length_append]; exact room⟩
      exact ⟨resultFits, after.trans ⟨[_, argument], rfl⟩, head⟩
  | case11 name options _ _ _ _ value words next assigned ih =>
      obtain ⟨keys, jvmArgs⟩ := Posix.assign_arrays assigned
      obtain ⟨resultFits, after, head⟩ := ih read
        ⟨keys ▸ fits.keys, jvmArgs ▸ fits.jvmArgs⟩
      exact ⟨resultFits, after.trans ⟨[name, value], rfl⟩, head⟩
  | case5 | case6 | case8 | case9 | case10 | case12 => cases read

private theorem guard_pos {condition : Prop} [Decidable condition]
    (holds : condition) : (guard condition : Option Unit) = some () :=
  if_pos holds

private theorem guard_neg {condition : Prop} [Decidable condition]
    (fails : ¬condition) : (guard condition : Option Unit) = none :=
  if_neg fails

theorem Options.fits_start : ({} : Options).Fits :=
  ⟨Nat.zero_le _, Nat.zero_le _⟩

theorem Posix.parse_eq {argv : List Bytes} {array : Strings}
    (held : argv.map some <+: array) (nonempty : argv ≠ []) :
    Posix.parse argv.length array = .ok (parseWords argv) := by
  have named : loadText array 0 = .ok (argv.head nonempty) :=
    loadText_eq held (by rw [← List.head?_eq_getElem?,
      List.head?_eq_some_head nonempty])
  have refused := @Posix.usage_eq Parsed array _ named
  unfold Posix.parse
  cases found : argv[1]? with
  | none =>
      have few := List.getElem?_eq_none_iff.mp found
      rw [if_pos (by omega), refused, parseWords, found]
      rfl
  | some mode =>
      have many := (List.getElem?_eq_some_iff.mp found).1
      rw [if_neg (by omega), loadText_eq held found, refused,
        Posix.optionLoop_eq held (by omega) (by omega) named
          Options.fits_start, parseWords, found]
      simp only [ok_bind, Option.bind_eq_bind, Option.bind_some]
      by_cases known : mode = ascii "preload".toList ∨
          mode = ascii "run".toList
      · rw [if_neg (fun other => known.elim other.1 other.2),
          guard_pos known, Option.bind_some]
        cases read : readWords (argv.drop 2) {} with
        | none => rfl
        | some result =>
            obtain ⟨options, rest⟩ := result
            obtain ⟨fits, after, -⟩ := readWords_spec read Options.fits_start
            have short := after.length_le
            rw [List.length_drop] at short
            have last : argv.length - rest.length = argv.length ↔
                rest = [] := by
              rw [← List.length_eq_zero_iff]
              omega
            simp only [Option.map_some]
            rw [Posix.check_eq _ fits named, Option.bind_some]
            by_cases ended : rest = []
            · rw [if_pos (last.mpr ended), guard_neg (not_not.mpr ended)]
              rfl
            · rw [if_neg (mt last.mp ended), guard_pos ended]
              rfl
      · rw [guard_neg known, if_pos (not_or.mp known)]
        rfl

theorem Windows.optionLoop_eq {argv : Strings} {program : Bytes}
    (named : loadText argv 0 = .ok program) (argc rounds index : Nat) (options : Options) :
    Windows.optionLoop argc argv rounds index options =
      Posix.optionLoop argc argv rounds index options := by
  have same := @Posix.usage_eq (Options × Nat) argv program named
  induction rounds generalizing index options with
  | zero => rfl
  | succ rounds ih =>
      simp only [Windows.optionLoop, Posix.optionLoop, ih, Windows.assign_eq,
        Windows.usage, same]

theorem Windows.check_eq {argv : Strings} {program : Bytes}
    (named : loadText argv 0 = .ok program) (argc : Nat) (preload : Bool) (options : Options) (index : Nat) :
    Windows.check argc preload options index =
      Posix.check argc argv preload options index := by
  have same := @Posix.usage_eq Parsed argv program named
  simp only [Windows.check, Posix.check, Windows.usage, same]

theorem Windows.parse_eq {argv : Strings} {program : Bytes}
    (named : loadText argv 0 = .ok program) (argc : Nat) : Windows.parse argc argv = Posix.parse argc argv := by
  have same := @Posix.usage_eq Parsed argv program named
  simp only [Windows.parse, Posix.parse, Windows.usage, same,
    Windows.optionLoop_eq named, Windows.check_eq named]

theorem Windows.parse_argv (argv : List Bytes) :
    Windows.parse argv.length (argv.map some) = .ok (parseWords argv) := by
  cases argv with
  | nil => rfl
  | cons name rest =>
      have named : loadText (List.map some (name :: rest)) 0 = .ok name := rfl
      rw [Windows.parse_eq named]
      exact Posix.parse_eq List.prefix_rfl (List.cons_ne_nil name rest)

/-- A write to the first free place of an array. -/
theorem put_eq {front : Strings} {index : Nat} (place : index = front.length)
    (free : Nat) (entry : Option Bytes) :
    put (front ++ List.replicate (free + 1) none) index entry =
      .ok (front ++ [entry] ++ List.replicate free none) := by
  subst place
  simp [put, List.replicate_succ]

theorem Windows.convert_eq {wideArgv before rest : List Wide}
    {done : Strings} (split : wideArgv = before ++ rest)
    (aligned : done.length = before.length) :
    Windows.convert wideArgv rest.length before.length
        (done ++ List.replicate rest.length none) =
      .ok ((rest.mapM utf8).map fun texts => done ++ texts.map some) := by
  induction rest generalizing before done with
  | nil => simp [Windows.convert]
  | cons input rest ih =>
      have entry : wideArgv[before.length]? = some input := by
        rw [split]
        simp
      rw [List.length_cons, Windows.convert, entry]
      dsimp only
      cases converted : utf8 input with
      | none => simp [converted]
      | some text =>
          have next := @ih (before ++ [input]) (done ++ [some text])
            (by simp [split]) (by simp [aligned])
          rw [List.length_append, List.length_singleton] at next
          dsimp only
          rw [put_eq aligned.symm, ok_bind, next]
          cases others : rest.mapM utf8 <;> simp [converted, others]

private theorem length_of_mapM {wideArgv : List Wide} {argv : List Bytes}
    (converted : wideArgv.mapM utf8 = some argv) :
    argv.length = wideArgv.length := by
  induction wideArgv generalizing argv with
  | nil =>
      cases converted
      rfl
  | cons input wideArgv ih =>
      simp only [List.mapM_cons, Option.bind_eq_bind, Option.bind_eq_some_iff]
        at converted
      obtain ⟨text, -, rest, others, whole⟩ := converted
      cases whole
      simp [ih others]

theorem Windows.wmain_eq (wideArgv : List Wide) :
    Windows.wmain wideArgv =
      .ok ((wideArgv.mapM utf8).bind parseWords) := by
  have converted := @Windows.convert_eq wideArgv [] wideArgv [] rfl rfl
  simp only [List.length_nil, List.nil_append] at converted
  rw [Windows.wmain, converted, ok_bind]
  cases argv : wideArgv.mapM utf8 with
  | none => rfl
  | some argv =>
      dsimp only [Option.map_some]
      rw [← length_of_mapM ‹_›, Windows.parse_argv]
      rfl

theorem copy_eq {before entries after front : Strings} {spare : Nat}
    {index offset : Nat} (start : index = before.length)
    (place : offset = front.length) :
    copy (before ++ entries ++ after) entries.length index
        (front ++ List.replicate (entries.length + spare) none) offset =
      .ok (front ++ entries ++ List.replicate spare none) := by
  induction entries generalizing before front index offset with
  | nil => simp [copy]
  | cons entry entries ih =>
      have found : (before ++ entry :: entries ++ after)[index]? =
          some entry := by
        simp [start]
      rw [List.length_cons, copy, load, found]
      dsimp only
      rw [ok_bind, Nat.add_right_comm, put_eq place, ok_bind]
      have next := @ih (before ++ [entry]) (front ++ [entry]) (index + 1)
        (offset + 1) (by simp [start]) (by simp [place])
      simpa using next

/-- An array of the right size ends up with the arguments of the child in
front of the places that are to spare. -/
theorem fillChild_eq {parsed : Parsed} {argv : List Bytes} {after : Strings}
    {artifactPath : Bytes} {size spare : Nat}
    (inside : parsed.separator < argv.length)
    (exactly : size =
      (parsed.childArguments argv artifactPath).length + spare) :
    fillChild parsed (argv.map some ++ after)
        (argv.length - parsed.separator - 1) artifactPath
        (List.replicate size none) =
      .ok ((parsed.childArguments argv artifactPath).map some ++
        List.replicate spare none) := by
  rw [exactly]
  unfold fillChild Parsed.childArguments
  generalize cut : parsed.separator + 1 = position
  have source : argv.map some ++ after =
      (argv.take position).map some ++ (argv.drop position).map some ++
        after := by
    rw [← List.map_append, List.take_append_drop]
  have start : position = ((argv.take position).map some).length := by
    simp
    omega
  have count : argv.length - parsed.separator - 1 =
      ((argv.drop position).map some).length := by
    simp
    omega
  rw [source, count]
  generalize (argv.take position).map some = before at start
  generalize argv.drop position = users
  have copied (front : Strings) (offset : Nat)
      (place : offset = front.length) :=
    @copy_eq before (users.map some) after front spare position offset start
      place
  cases parsed.preload with
  | true =>
      have size : ([parsed.program] ++ users).length + spare =
          (users.map some).length + spare + 1 := by
        simp
        omega
      have first := @put_eq [] 0 rfl ((users.map some).length + spare)
        (some parsed.program)
      rw [List.nil_append, List.nil_append] at first
      simp only [if_true]
      rw [size, first, ok_bind, copied _ 1 rfl]
      simp
  | false =>
      have size : (parsed.program ::
          (parsed.jvmArgs ++ [ascii "-jar".toList, artifactPath]) ++
            users).length + spare =
          (parsed.jvmArgs.map some).length +
            ((users.map some).length + spare + 1 + 1) + 1 := by
        simp
        omega
      have first := @put_eq [] 0 rfl ((parsed.jvmArgs.map some).length +
            ((users.map some).length + spare + 1 + 1)) (some parsed.program)
      rw [List.nil_append, List.nil_append] at first
      have machine := @copy_eq [] (parsed.jvmArgs.map some) []
        [some parsed.program] ((users.map some).length + spare + 1 + 1) 0 1
        rfl rfl
      rw [List.nil_append, List.append_nil, List.length_map] at machine
      simp only [Bool.false_eq_true, if_false]
      rw [size, first, ok_bind, List.length_map, machine, ok_bind,
        put_eq (by simp), ok_bind, put_eq (by simp), ok_bind,
        copied _ _ (by simp)]
      simp

/-- What both launchers rely on once the arguments are accepted. -/
structure Parsed.Sound (parsed : Parsed) (argv : List Bytes) : Prop where
  separator : argv[parsed.separator]? = some (ascii "--".toList)
  keys : parsed.keys.length ≤ maxKeys
  jvmArgs : parsed.jvmArgs.length ≤ maxJvmArgs
  hosted : parsed.preload = true → parsed.jvmArgs = []

theorem Options.finish_spec {options : Options} {preload : Bool}
    {separator : Nat} {parsed : Parsed}
    (finished : options.finish preload separator = some parsed) :
    parsed.separator = separator ∧ parsed.keys.length ≤ maxKeys ∧
      parsed.jvmArgs = options.jvmArgs ∧
      (parsed.preload = true → parsed.jvmArgs = []) := by
  unfold finish at finished
  split at finished
  · split at finished
    · rename_i complete
      cases finished
      exact ⟨rfl, complete.room, rfl, fun mode => (complete.hosted mode).2⟩
    · cases finished
  · cases finished

theorem parseWords_sound {argv : List Bytes} {parsed : Parsed}
    (accepted : parseWords argv = some parsed) : parsed.Sound argv := by
  simp only [parseWords, Option.bind_eq_bind, Option.bind_eq_some_iff]
    at accepted
  obtain ⟨mode, -, _, -, ⟨options, rest⟩, read, _, ended, finished⟩ :=
    accepted
  obtain ⟨fits, ⟨used, words⟩, head⟩ := readWords_spec read Options.fits_start
  obtain ⟨position, keys, jvmArgs, hosted⟩ := Options.finish_spec finished
  refine ⟨?_, keys, jvmArgs ▸ fits.jvmArgs, hosted⟩
  cases rest with
  | nil => simp at ended
  | cons first rest =>
      have length := congrArg List.length words
      rw [List.length_append, List.length_drop, List.length_cons] at length
      have place : argv.length - (first :: rest).length =
          2 + used.length := by
        rw [List.length_cons]
        omega
      rw [position, place, ← List.getElem?_drop, ← words,
        List.getElem?_append_right (Nat.le_refl _), Nat.sub_self,
        List.getElem?_cons_zero, head first rfl]

theorem Parsed.Sound.childArguments_length {parsed : Parsed}
    {argv : List Bytes} (sound : parsed.Sound argv) (artifactPath : Bytes) :
    (parsed.childArguments argv artifactPath).length =
      argv.length - parsed.separator - 1 + parsed.jvmArgs.length +
        if parsed.preload then 1 else 3 := by
  have inside := (List.getElem?_eq_some_iff.mp sound.separator).1
  unfold Parsed.childArguments
  cases mode : parsed.preload with
  | true =>
      simp [sound.hosted mode]
      omega
  | false =>
      simp
      omega

private theorem mapM_id_some (arguments : List Bytes) :
    (arguments.map some).mapM id = some arguments := by
  induction arguments with
  | nil => rfl
  | cons argument arguments ih =>
      rw [List.map_cons, List.mapM_cons, ih]
      rfl

/-- A converted argument of the system converts back. -/
theorem units_of_utf8 {input : Wide} {text : Bytes}
    (converted : utf8 input = some text) : units text = some input := by
  obtain ⟨scalars, decoded, rfl⟩ := Option.map_eq_some_iff.mp converted
  rw [units, Unicode.decode_eq_some_iff.mpr rfl, Option.map_some,
    ← Unicode.utf16Decode_sound decoded]

theorem units_of_mapM {wideArgv : List Wide} {argv : List Bytes}
    (converted : wideArgv.mapM utf8 = some argv) :
    argv.map units = wideArgv.map some := by
  induction wideArgv generalizing argv with
  | nil =>
      cases converted
      rfl
  | cons input wideArgv ih =>
      simp only [List.mapM_cons, Option.bind_eq_bind, Option.bind_eq_some_iff]
        at converted
      obtain ⟨text, first, rest, others, whole⟩ := converted
      cases whole
      rw [List.map_cons, List.map_cons, units_of_utf8 first, ih others]

theorem Windows.command_eq (arguments : List Bytes) :
    Windows.command (arguments.map some) = commandLine arguments := by
  rw [Windows.command, mapM_id_some]
  rfl

/-- The child of Windows splits the line into its arguments; there is no line
only where an argument does not convert or the line would be too long.  A
program that can be started has no quote in its name and no backslash at its
end. -/
structure Windows.Passes (program : Bytes) (arguments : List Bytes) :
    Prop where
  splits : 0x22 ∉ program → program.getLast? ≠ some 0x5C → ∀ line,
    Windows.command (arguments.map some) = some line →
      ∃ text, line = text ++ [0] ∧ 0 ∉ text ∧
        (split text).map some = arguments.map units
  refused : Windows.command (arguments.map some) = none →
    (∃ argument ∈ arguments, units argument = none) ∨
      ∃ values, arguments.map units = values.map some ∧
        longest < (quotedForm values).length + 1

theorem Windows.passes_of_strings {program : Bytes} {arguments : List Bytes}
    (free : ∀ argument ∈ program :: arguments, 0 ∉ argument) :
    Windows.Passes program (program :: arguments) := by
  refine ⟨fun plain final line built => ?_, fun refused => ?_⟩
  · rw [Windows.command_eq] at built
    obtain ⟨values, converted⟩ := commandLine_converted built
    obtain ⟨text, shape, terminated, parts⟩ :=
      commandLine_splits free plain final converted built
    exact ⟨text, shape, terminated, by rw [parts, converted]⟩
  · rw [Windows.command_eq] at refused
    exact commandLine_refused free (List.cons_ne_nil _ _) refused

/-- What the two launchers make of an argument vector, each access to an array
within its bounds: the same, and on success the child is handed its program,
the arguments of the virtual machine with the artifact in run mode, and what
follows the separator.  On Windows the vector is a converted one, and the
child splits a command line. -/
structure LaunchersAgree (argv : List Bytes) : Prop where
  posix : Posix.parse argv.length (argv.map some ++ [none]) =
    .ok (parseWords argv)
  windows : Windows.parse argv.length (argv.map some) =
    .ok (parseWords argv)
  converted : ∀ wideArgv, wideArgv.mapM utf8 = some argv →
    Windows.wmain wideArgv = .ok (parseWords argv) ∧
      argv.map units = wideArgv.map some
  accepted : ∀ parsed, parseWords argv = some parsed → parsed.Sound argv
  child : ∀ parsed, parseWords argv = some parsed →
    ∀ artifactPath arguments,
      arguments = parsed.childArguments argv artifactPath →
      Posix.childArgv parsed argv.length (argv.map some ++ [none])
          artifactPath = .ok (arguments.map some ++ [none]) ∧
      Windows.child parsed argv.length (argv.map some) artifactPath =
        .ok (arguments.map some) ∧
      ((∀ argument ∈ arguments, 0 ∉ argument) →
        Windows.Passes parsed.program arguments)

/-- The arrays that both launchers fill for the child. -/
theorem Parsed.Sound.child_eq {parsed : Parsed} {argv : List Bytes}
    (sound : parsed.Sound argv) (artifactPath : Bytes) :
    Posix.childArgv parsed argv.length (argv.map some ++ [none])
        artifactPath =
      .ok ((parsed.childArguments argv artifactPath).map some ++ [none]) ∧
    Windows.child parsed argv.length (argv.map some) artifactPath =
      .ok ((parsed.childArguments argv artifactPath).map some) := by
  have inside := (List.getElem?_eq_some_iff.mp sound.separator).1
  have length := sound.childArguments_length artifactPath
  constructor
  · rw [Posix.childArgv]
    apply @fillChild_eq parsed argv [none] artifactPath _ 1 inside
    split <;> grind -ring -linarith
  · rw [Windows.child]
    have filled := @fillChild_eq parsed argv [] artifactPath _ 0 inside rfl
    rw [List.append_nil, List.replicate_zero, List.append_nil,
      Nat.add_zero, length] at filled
    exact filled

/-- Both launchers agree on every argument vector but the empty one, where
the POSIX usage text reads the name of the program through a null pointer. -/
theorem launchers_agree (argv : List Bytes) :
    LaunchersAgree argv ↔ argv ≠ [] := by
  constructor
  · rintro agree rfl
    cases agree.posix
  · intro nonempty
    refine {
      posix := Posix.parse_eq (List.prefix_append _ _) nonempty
      windows := Windows.parse_argv argv
      converted := ?_
      accepted := fun parsed => parseWords_sound
      child := ?_ }
    · intro wideArgv converted
      rw [Windows.wmain_eq, converted]
      exact ⟨rfl, units_of_mapM converted⟩
    · rintro parsed accepted artifactPath arguments rfl
      obtain ⟨posix, windows⟩ :=
        (parseWords_sound accepted).child_eq artifactPath
      exact ⟨posix, windows, Windows.passes_of_strings⟩

/-- The empty argument vector. -/
theorem launchers_differ : ¬LaunchersAgree [] := by
  intro agree
  cases agree.posix

/-- A launch whose options have values that are the separator's spelling. -/
def trickyArguments : List Bytes :=
  ["loader", "run", "--endpoint", "https://a", "--product", "--",
    "--channel", "c", "--java", "/j", "--jvm-arg", "-x", "--key-id", "k",
    "--public-key", "h", "--trusted-key", "t", "u", "--", "--", "-y"].map
      fun word => ascii word.toList

/-- The pair of `--key-id` comes last, and the child of each launcher gets
what follows the separator. -/
theorem launchers_agree_small : ∃ parsed,
    parseWords trickyArguments = some parsed ∧
    parsed.keys = [(ascii "t".toList, ascii "u".toList),
      (ascii "k".toList, ascii "h".toList)] ∧
    Posix.childArgv parsed 22 (trickyArguments.map some ++ [none])
        (ascii "/a.jar".toList) =
      .ok ((["/j", "-x", "-jar", "/a.jar", "--", "-y"].map
        fun word => some (ascii word.toList)) ++ [none]) ∧
    ∀ line, Windows.command (["/j", "-x", "-jar", "/a.jar", "--", "-y"].map
        fun word => some (ascii word.toList)) = some line →
      ∃ text, line = text ++ [0] ∧ 0 ∉ text ∧
        (split text).map some = ["/j", "-x", "-jar", "/a.jar", "--",
          "-y"].map fun word => units (ascii word.toList) := by
  have agree := (launchers_agree trickyArguments).mpr (by decide)
  have read : (parseWords trickyArguments).map (fun parsed =>
      (parsed.keys, parsed.program,
        parsed.childArguments trickyArguments (ascii "/a.jar".toList))) =
      some ([(ascii "t".toList, ascii "u".toList),
        (ascii "k".toList, ascii "h".toList)], ascii "/j".toList,
        ["/j", "-x", "-jar", "/a.jar", "--", "-y"].map
          fun word => ascii word.toList) := by decide +kernel
  obtain ⟨parsed, accepted, same⟩ := Option.map_eq_some_iff.mp read
  obtain ⟨keys, rest⟩ := Prod.mk.inj same
  obtain ⟨program, arguments⟩ := Prod.mk.inj rest
  obtain ⟨posix, -, passes⟩ := agree.child parsed accepted _ _ arguments.symm
  refine ⟨parsed, accepted, keys, posix, ?_⟩
  rw [program] at passes
  exact (passes (by decide)).splits (by decide) (by decide)

end RymgaLoader.Launcher
