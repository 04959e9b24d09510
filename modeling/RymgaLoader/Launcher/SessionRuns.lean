import RymgaLoader.Launcher.Session

/-!
# Runs of the POSIX launcher

Whichever calls fail, a session starts at most one child, with the promised
artifact in place, leaves both directories alone until the child has ended,
and then takes away what it has put there.
-/

namespace RymgaLoader.Launcher.Session

open Native Disk

variable {process : Process} {directory : Bytes} {before after : Machine}
  {setting : Setting} {parsed : Parsed} {m : Manifest} {name : Name}
  {pid : Nat} {base tidied : Disk}

namespace Machine

/-- No child is waited for, and none has been disturbed. -/
structure Quiet (machine : Machine) : Prop where
  awaited : machine.awaited = false
  disturbed : machine.disturbed = false

/-- Nothing but the directories has changed. -/
structure Moved (before after : Machine) : Prop where
  children : after.children = before.children
  awaited : after.awaited = before.awaited
  ended : after.ended = before.ended
  disturbed : after.disturbed = before.disturbed

theorem Moved.refl (machine : Machine) : Moved machine machine :=
  ⟨rfl, rfl, rfl, rfl⟩

theorem Moved.trans {first second third : Machine}
    (front : Moved first second) (back : Moved second third) :
    Moved first third where
  children := back.children.trans front.children
  awaited := back.awaited.trans front.awaited
  ended := back.ended.trans front.ended
  disturbed := back.disturbed.trans front.disturbed

theorem Moved.quiet (moved : Moved before after) (quiet : before.Quiet) :
    after.Quiet where
  awaited := moved.awaited.trans quiet.awaited
  disturbed := moved.disturbed.trans quiet.disturbed

theorem Quiet.setRuntime {machine : Machine} (quiet : machine.Quiet)
    (runtime : World) : Moved machine (machine.setRuntime runtime) where
  children := rfl
  awaited := rfl
  ended := rfl
  disturbed := by
    rw [Machine.setRuntime, quiet.awaited, Bool.or_false]

theorem Quiet.setPlugins {machine : Machine} (quiet : machine.Quiet)
    (plugins : World) : Moved machine (machine.setPlugins plugins) where
  children := rfl
  awaited := rfl
  ended := rfl
  disturbed := by
    rw [Machine.setPlugins, quiet.awaited, Bool.or_false]

end Machine

theorem Hosted.trans {first second third : Disk} (front : Hosted first second)
    (back : Hosted second third) : Hosted first third where
  hidden name loader :=
    (back.hidden name loader).trans (front.hidden name loader)
  regular name ref loader linked regular :=
    back.regular name ref loader ((front.hidden name loader).trans linked)
      (front.regular name ref loader linked regular)
  volume := back.volume.trans front.volume
  distinct := back.distinct

/-- What the cleanup of the runtime directory leaves, if it runs. -/
def Swept (process : Process) (before : World) (disk : Disk) : Prop :=
  disk = before.disk ∨ ∃ started cleaned, started.disk = before.disk ∧
    Program.Runs (alone process deletionsSucceed) (cleanupStale 86400) started
      () cleaned ∧ disk = cleaned.disk

/-- What the cleanup of the plugin directory leaves, if it runs. -/
def Tidied (process : Process) (directory : Bytes) (before : World)
    (disk : Disk) : Prop :=
  disk = before.disk ∨ ∃ started cleaned, started.disk = before.disk ∧
    Program.Runs (alone process (smooth directory)) cleanupPlugins started ()
      cleaned ∧ disk = cleaned.disk

/-- Since `base`, the artifact of this manifest was added under `name`. -/
structure Acquired (process : Process) (pid : Nat) (sodium : Sodium)
    (parsed : Parsed) (m : Manifest) (base : Disk) (name : Name)
    (disk : Disk) : Prop where
  sound : base.WellFormed
  absent : base.root.lookup name = none
  fits : MarkerFits (runtimeDirectory parsed) name
  published : Published process sodium pid m base name disk

/-- The manifest was accepted for this launch. -/
def Vouched (setting : Setting) (parsed : Parsed) (keys : List PublicKey)
    (license : Bytes) (m : Manifest) : Prop :=
  ∃ key, Accepted setting.sodium (request parsed keys) keys setting.inputs
    (setting.inputs.response (request parsed keys) license) m key

theorem deletes : Ensures deletionsSucceed deletionsSucceed :=
  fun _ _ _ permitted => permitted

/-- The artifact that was acquired, as whoever opens its path reads it. -/
theorem Acquired.promised {disk : Disk}
    (acquired : Acquired process pid setting.sodium parsed m base name disk) :
    Promised setting.sodium m (contentOf disk name m.filename) := by
  obtain ⟨marker, file, content, -, stored, promised, holding⟩ :=
    acquired.published
  have linked : disk.lookup (.path name m.filename) = some file := by
    rw [holding.lookup_path, alongside, Function.update_self]
  rw [contentOf, linked]
  dsimp only
  rw [stored]
  exact promised

/-- The plugin that was published in `published` can be taken away from `now`
again. -/
structure Shown (process : Process) (pid : Nat) (filename : Name)
    (source : Bytes) (base : Disk) (plugin : Plugin)
    (output marker : FileRef) (published now : Disk) : Prop where
  made : PublishedPlugin process pid filename source base plugin output marker
    published
  kept : plugin.Kept output marker now
  replaced : ∀ ref, now.entry (.top plugin.destination) = some ref →
    ref ≠ output → ref.inode ≠ plugin.fileId

section

variable {filename : Name} {source : Bytes} {plugin : Plugin}
  {output marker : FileRef} {published now later : Disk}

theorem Shown.hosted
    (shown : Shown process pid filename source base plugin output marker
      published now) (hosted : Hosted now later) :
    Shown process pid filename source base plugin output marker published
      later := by
  have anchor : loaderName plugin.anchor = true := by
    rw [loaderName, shown.made.anchor, Bool.true_or]
  have marked : loaderName plugin.marker = true := by
    rw [loaderName, shown.made.marked, Bool.or_true]
  have anchored : later.entry (.top plugin.anchor) = some output :=
    (hosted.hidden _ anchor).trans shown.kept.anchor
  refine ⟨shown.made, ⟨anchored, ?_, ?_, ?_⟩, ?_⟩
  · exact (hosted.hidden _ marked).trans shown.kept.marker
  · exact hosted.regular _ output anchor shown.kept.anchor shown.kept.regular
  · exact hosted.volume.trans shown.kept.volume
  · intro ref linked different same
    have identity := congrArg Prod.snd shown.made.identity
    exact different (hosted.distinct _ _ _ _ linked anchored
      (same.trans identity))

end

/-- The plugin directory without the plugin of the session, if it has one. -/
def withdrawn (output : FileRef) (disk : Disk) : Option Plugin → Disk
  | some plugin => plugin.withdraw output disk
  | none => disk

section

variable {argv : List Bytes}

/-- The path of the artifact. -/
def artifactText (parsed : Parsed) (m : Manifest) (name : Name) : Bytes :=
  slashed (slashed (runtimeDirectory parsed) name) m.filename

end

section

variable {argv : List Bytes}

/-- The plugin directory that an argument vector names. -/
def directoryOf (argv : List Bytes) : Bytes :=
  ((parseWords argv).map pluginDirectory).getD []

/-- What a child finds: under the path in its arguments the artifact that an
accepted manifest promises, and in preload mode the same bytes published as a
plugin. -/
structure Equipped (setting : Setting) (process : Process) (argv : List Bytes)
    (before : Machine) (parsed : Parsed) (m : Manifest) (name : Name)
    (swept tidied : Disk) (plugin : Option Plugin) (output : FileRef)
    (child : Child) : Prop where
  vouched : ∃ keys license, publicKeys parsed.keys = some keys ∧
    Vouched setting parsed keys license m
  arguments : child.arguments =
    (parsed.childArguments argv (artifactText parsed m name)).map some ++
      [none]
  added : AddsArtifact setting.sodium (before.runtime.pidOf process) m name
    swept child.runtime
  promised : Promised setting.sodium m
    (contentOf child.runtime name m.filename)
  mode : plugin.isSome = parsed.preload
  published : ∀ made, plugin = some made → ∃ marker,
    PublishedPlugin process (before.plugins.pidOf process) m.filename
      (contentOf child.runtime name m.filename) tidied made output marker
      child.plugins
  untouched : plugin = none →
    tidied = before.plugins.disk ∧ child.plugins = before.plugins.disk

/-- What a session leaves, given what its cleanups left. -/
structure Outcome (setting : Setting) (process : Process) (argv : List Bytes)
    (before after : Machine) (status : Nat) (swept tidied : Disk) : Prop where
  runtimeSwept : Swept process before.runtime swept
  pluginsTidied : Tidied process (directoryOf argv) before.plugins tidied
  undisturbed : after.disturbed = false
  restored : after.runtime.disk.contents = swept.contents
  ended : (after.children = [] ∧ (status = 1 ∨ status = 2) ∧
      after.plugins.disk.contents = tidied.contents) ∨
    ∃ parsed m name plugin output child waited left,
      after.children = [child] ∧ parseWords argv = some parsed ∧
      Equipped setting process argv before parsed m name swept tidied plugin
        output child ∧
      Hosted child.plugins left ∧ after.ended = some (waited, left) ∧
      waited ≠ .interrupted ∧ status = exitStatus waited ∧
      after.plugins.disk = withdrawn output left plugin

/-- A session that starts no child and has used no directory. -/
theorem Outcome.refused {status : Nat} (quiet : before.Quiet)
    (childless : before.children = []) (given : status = 1 ∨ status = 2)
    (runtime : after.runtime.disk = before.runtime.disk)
    (plugins : after.plugins.disk = before.plugins.disk)
    (moved : Machine.Moved before after) :
    Outcome setting process argv before after status before.runtime.disk
      before.plugins.disk := by
  refine ⟨Or.inl rfl, Or.inl rfl, (moved.quiet quiet).disturbed, ?_,
    Or.inl ⟨moved.children.trans childless, given, ?_⟩⟩
  · rw [runtime]
  · rw [plugins]

/-- An outcome only depends on what the directories held before, and on the
process that acts in them. -/
theorem Outcome.transfer {first : Machine} {status : Nat} {swept : Disk}
    (runtimeDisk : before.runtime.disk = first.runtime.disk)
    (pluginsDisk : before.plugins.disk = first.plugins.disk)
    (runtimePid : before.runtime.pidOf = first.runtime.pidOf)
    (pluginsPid : before.plugins.pidOf = first.plugins.pidOf)
    (outcome : Outcome setting process argv before after status swept
      tidied) :
    Outcome setting process argv first after status swept tidied := by
  obtain ⟨runtimeSwept, pluginsTidied, undisturbed, restored, ended⟩ := outcome
  rw [Swept, runtimeDisk] at runtimeSwept
  rw [Tidied, pluginsDisk] at pluginsTidied
  refine ⟨runtimeSwept, pluginsTidied, undisturbed, restored,
    ended.imp_right ?_⟩
  rintro ⟨parsed, m, name, plugin, output, child, waited, left, started,
    accepted, equipped, rest⟩
  obtain ⟨vouched, arguments, added, promised, mode, published, untouched⟩ :=
    equipped
  rw [runtimePid] at added
  rw [pluginsPid] at published
  rw [pluginsDisk] at untouched
  exact ⟨parsed, m, name, plugin, output, child, waited, left, started,
    accepted, ⟨vouched, arguments, added, promised, mode, published,
      untouched⟩, rest⟩

end

/-- Whether inode numbers tell the files of the shared directory apart. -/
def distinctInodes (disk : Disk) : Bool :=
  disk.root.entries.all fun first => disk.root.entries.all fun second =>
    match first.2, second.2 with
    | .file ref, .file other => ref.inode ≠ other.inode || ref = other
    | _, _ => true

/-- Everything succeeds; each wait is interrupted as long as signals arrive,
and then the child was terminated. -/
def obliging (process : Process) (directory : Bytes) :
    (call : Call) → Machine → Option (Answer call × Machine)
  | .runtime call, machine =>
      (Native.machine process call machine.runtime).map fun answered =>
        (answered.1, machine.setRuntime answered.2)
  | .plugins call, machine =>
      (drawingMachine directory process call machine.plugins).map
        fun answered => (answered.1, machine.setPlugins answered.2)
  | .readLicense _, machine => some (some [0x6C], machine)
  | .content name file, machine =>
      some (contentOf machine.runtime.disk name file, machine)
  | .calloc, machine => some (true, machine)
  | .fork arguments, machine => some (true, machine.start arguments)
  | .waitpid signals, machine =>
      let waited := if 0 < signals then .interrupted else .signaled 15
      if distinctInodes machine.plugins.disk then
        some (waited, machine.wait waited machine.plugins.disk)
      else none

end RymgaLoader.Launcher.Session
