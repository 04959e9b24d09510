import RymgaLoader.Native.Materialize
import RymgaLoader.Native.PluginDirectory

/-!
# What processes of a plugin directory owe each other

A deletion is authorised by an inode number: one that a marker records, that a
process has read from a marker, or that a process has noted of its own file.
Between any two calls every entry with such a number leads to a file of the
process that is vouched for, and every live process has what it published.
-/

namespace RymgaLoader.Native

open Interleaving Scan

private theorem cString_grows {content longer : Bytes}
    (grows : content <+: longer) :
    ∃ more, cString longer = cString content ++ more := by
  obtain ⟨more, rfl⟩ := grows
  rw [cString, cString, List.takeWhile_append]
  split
  · rename_i whole
    refine ⟨more.takeWhile (· ≠ 0), ?_⟩
    rw [List.Sublist.eq_of_length (List.takeWhile_sublist _) whole]
  · exact ⟨[], (List.append_nil _).symm⟩

theorem recordedFile_eq_some_iff {content : Bytes} {file : Nat} :
    recordedFile content = some file ↔
      ∃ first second third fourth left pid created volume,
        scanLiteral (ascii ['R', 'L', 'P', '1']) (cString content) =
          some first ∧
        scanSigned first = some (pid, second) ∧
        scanSigned second = some (created, third) ∧
        scanUnsigned third = some (volume, fourth) ∧
        scanUnsigned fourth = some (file, left) ∧ left ≠ [] := by
  constructor
  · intro recorded
    simp only [recordedFile, Option.bind_eq_bind,
      Option.bind_eq_some_iff] at recorded
    obtain ⟨first, literal, ⟨pid, second⟩, process, ⟨created, third⟩, time,
      ⟨volume, fourth⟩, device, ⟨inode, left⟩, number, last⟩ := recorded
    split at last
    · cases last
    · rename_i more
      cases last
      exact ⟨first, second, third, fourth, left, pid, created, volume,
        literal, process, time, device, number, more⟩
  · rintro ⟨first, second, third, fourth, left, pid, created, volume,
      literal, process, time, device, number, more⟩
    simp only [recordedFile, literal, process, time, device, number,
      Option.bind_eq_bind, Option.bind_some, if_neg more]

private theorem scanNumber_rest {input : Bytes} {found : Bool × Nat × Bytes}
    (number : scanNumber input = some found) : input ≠ [] := by
  rintro rfl
  cases number

private theorem scanUnsigned_rest {input rest : Bytes} {value : Nat}
    (number : scanUnsigned input = some (value, rest)) : input ≠ [] := by
  obtain ⟨found, inner, -⟩ := Option.map_eq_some_iff.mp number
  exact scanNumber_rest inner

private theorem scanSigned_rest {input rest : Bytes} {value : Int}
    (number : scanSigned input = some (value, rest)) : input ≠ [] := by
  obtain ⟨found, inner, -⟩ := Option.map_eq_some_iff.mp number
  exact scanNumber_rest inner

/-- What a marker records stays recorded while it is written on. -/
theorem recordedFile_grows {content longer : Bytes} {file : Nat}
    (recorded : recordedFile content = some file)
    (grows : content <+: longer) : recordedFile longer = some file := by
  obtain ⟨first, second, third, fourth, left, pid, created, volume,
    literal, process, time, device, number, nonempty⟩ :=
    recordedFile_eq_some_iff.mp recorded
  obtain ⟨more, longerText⟩ := cString_grows grows
  refine recordedFile_eq_some_iff.mpr ⟨first ++ more, second ++ more,
    third ++ more, fourth ++ more, left ++ more, pid, created, volume, ?_,
    scanSigned_append more process (scanSigned_rest time),
    scanSigned_append more time (scanUnsigned_rest device),
    scanUnsigned_append more device (scanUnsigned_rest number),
    scanUnsigned_append more number nonempty, ?_⟩
  · rw [longerText]
    exact scanLiteral_append more literal
  · intro empty
    exact nonempty (List.append_eq_nil_iff.mp empty).1

/-- A marker that scans records an inode number. -/
theorem recordedFile_of_scanPlugin {content hex : Bytes} {pid created : Int}
    {volume file : Nat}
    (scanned : scanPlugin content = some (pid, created, volume, file, hex)) :
    recordedFile content = some file := by
  simp only [scanPlugin, scanPluginWith, Option.bind_eq_bind,
    Option.bind_eq_some_iff] at scanned
  obtain ⟨first, literal, ⟨number, second⟩, process, ⟨date, third⟩, time,
    ⟨device, fourth⟩, volumes, ⟨inode, left⟩, files, ⟨word, rest⟩, name,
    last⟩ := scanned
  split at last
  · cases last
    refine recordedFile_eq_some_iff.mpr ⟨first, second, third, fourth, left,
      number, date, device, literal, process, time, volumes, files, ?_⟩
    rintro rfl
    cases name
  · cases last

private theorem blank_first (rest : Bytes) :
    ∀ byte ∈ ((0x20 : UInt8) :: rest).head?, isDigit byte = false := by
  intro byte member
  cases member
  decide

theorem recordedFile_pluginText {pid : Nat} {created : Int64}
    {volume file : Nat} {filename : Name} (small : pid < 2 ^ 63)
    (epoch : 0 ≤ created) (narrowVolume : volume < 2 ^ 64)
    (narrowFile : file < 2 ^ 64) :
    recordedFile (pluginText pid created volume file filename) =
      some file := by
  have clean : cString (pluginText pid created volume file filename) =
      pluginText pid created volume file filename :=
    cString_eq_self (pluginText_noNul epoch)
  obtain ⟨time, smallTime, shape⟩ := exists_natCast_of_epoch epoch
  rw [recordedFile, clean]
  simp only [pluginText, shape, printSigned_natCast, Option.bind_eq_bind,
    scanLiteral_eq_some_iff.mpr rfl, Option.bind_some,
    scanSigned_decimal small (blank_first _),
    scanSigned_decimal smallTime (blank_first _),
    scanUnsigned_decimal narrowVolume (blank_first _),
    scanUnsigned_decimal narrowFile (blank_first _)]
  rfl

/-- However much of the text is written, no other number is recorded. -/
theorem recordedFile_of_cut {pid : Nat} {created : Int64} {volume file : Nat}
    {filename : Name} {content : Bytes} {recorded : Nat}
    (small : pid < 2 ^ 63) (epoch : 0 ≤ created)
    (narrowVolume : volume < 2 ^ 64) (narrowFile : file < 2 ^ 64)
    (cut : content <+: pluginText pid created volume file filename)
    (found : recordedFile content = some recorded) : recorded = file := by
  have whole := recordedFile_grows found cut
  rw [recordedFile_pluginText small epoch narrowVolume narrowFile] at whole
  exact (Option.some.inj whole).symm

/-- The names of markers and of partial files do not overlap. -/
theorem not_partial_of_marker {name : Name}
    (isMarker : pluginMarkerName name = true) :
    pluginPartialName name = false := by
  simp only [pluginMarkerName, Bool.decide_and, Bool.and_eq_true,
    decide_eq_true_eq] at isMarker
  rw [← Bool.not_eq_true]
  intro isPartial
  simp only [pluginPartialName, templateName, Bool.decide_and,
    Bool.and_eq_true, decide_eq_true_eq] at isPartial
  have long := isMarker.1
  rw [isPartial.2.1] at long
  exact absurd long (by decide)

/-- Every entry with this inode number leads to a file of the process. -/
def Disk.OnlyBy (disk : Disk) (owner : Process) (inode : Nat) : Prop :=
  ∀ name ref, disk.entry (.top name) = some ref → ref.inode = inode →
    (disk.files ref).creator = some owner

/-- What holds of the directory itself. -/
structure Disk.Tended (drawn : List Name) (born : Nat)
    (pidOf : Process → Nat) (disk : Disk) : Prop where
  linked : ∀ name ref, disk.entry (.top name) = some ref →
    ref.index < disk.nextFile ∧ ref.inode ≠ 0 ∧ ref.inode < 2 ^ 64
  hidden : ∀ name ref, disk.entry (.top name) = some ref →
    hiddenName name = true → disk.origin ref = some (.top name)
  visible : ∀ name ref, disk.entry (.top name) = some ref →
    hiddenName name = false → ∀ other ∈ drawn,
      disk.origin ref ≠ some (.top other)
  distinct : disk.DistinctInodes
  flat : ∀ id, (disk.directories id).mode.regular = false
  volume : disk.volume < 2 ^ 64
  origin : ∀ name ref, disk.origin ref = some (.top name) →
    ref.index < disk.nextFile ∧ (hiddenName name = true →
      (name ∈ drawn ∨ pluginPartialName name = true) ∧
      ∃ owner < born, (disk.files ref).creator = some owner)
  text : ∀ name ref, name ∈ drawn → disk.origin ref = some (.top name) →
    ∃ owner created volume file filename,
      (disk.files ref).creator = some owner ∧ 0 ≤ created ∧
      volume < 2 ^ 64 ∧ file < 2 ^ 64 ∧ (disk.files ref).content <+:
        pluginText (pidOf owner) created volume file filename
  drawn : ∀ name ∈ drawn, pluginMarkerName name = true

/-- A process whose files may be deleted by this inode number. -/
inductive Shared.Vouched (shared : Shared) : Process → Nat → Prop
  | marker {name ref owner inode} (named : name ∈ shared.drawn)
      (linked : shared.world.disk.entry (.top name) = some ref)
      (creator : (shared.world.disk.files ref).creator = some owner)
      (recorded : recordedFile (shared.world.disk.files ref).content =
        some inode) : Shared.Vouched shared owner inode
  | reading {process ref owner inode}
      (alive : shared.world.alive process = true)
      (opened : (shared.world.standing process).reading = some ref)
      (creator : (shared.world.disk.files ref).creator = some owner)
      (recorded : recordedFile (shared.world.disk.files ref).content =
        some inode) : Shared.Vouched shared owner inode
  | noted {process inode} (alive : shared.world.alive process = true)
      (own : (shared.world.standing process).noted = some inode) :
      Shared.Vouched shared process inode

/-- The file is published: its anchor keeps its inode number taken, and a
complete marker records it. -/
structure Shared.Holds (shared : Shared) (process : Process)
    (plugin : Plugin) : Prop where
  named : pluginPartialName plugin.anchor = true
  anchor : ∃ ref, shared.world.disk.entry (.top plugin.anchor) = some ref ∧
    (shared.world.disk.files ref).creator = some process ∧
    ref.inode = plugin.fileId ∧ plugin.volumeId = shared.world.disk.volume
  drawn : plugin.marker ∈ shared.drawn
  marker : ∃ ref created,
    shared.world.disk.entry (.top plugin.marker) = some ref ∧
    (shared.world.disk.files ref).creator = some process ∧ 0 ≤ created ∧
    (shared.world.disk.files ref).content =
      pluginText (shared.world.pidOf process) created plugin.volumeId
        plugin.fileId plugin.destination
  destination : MarkableName plugin.destination ∧
    hiddenName plugin.destination = false

/-- What holds between any two calls. -/
structure Shared.Settled (shared : Shared) : Prop where
  tended : shared.world.disk.Tended shared.drawn shared.world.born
    shared.world.pidOf
  vouched : ∀ owner inode, shared.Vouched owner inode →
    shared.world.disk.OnlyBy owner inode
  reads : ∀ process ref, shared.world.alive process = true →
    (shared.world.standing process).reading = some ref →
      ∃ name ∈ shared.drawn, shared.world.disk.origin ref = some (.top name)
  born : ∀ process, shared.world.alive process = true →
    process < shared.world.born
  pids : ∀ process < shared.world.born, 0 < shared.world.pidOf process ∧
    (shared.world.pidOf process : Int) ≤ intMax
  held : ∀ process, shared.world.alive process = true →
    ∀ plugin ∈ (shared.world.standing process).plugins,
      shared.Holds process plugin
  apart : ∀ process, shared.world.alive process = true →
    (shared.world.standing process).plugins.Pairwise fun first second =>
      first.marker ≠ second.marker ∧ first.fileId ≠ second.fileId

/-- What a live process may rely on. -/
structure Shared.Spares (process : Process) (before after : Shared) : Prop
    where
  standing : after.world.standing process = before.world.standing process
  alive : after.world.alive process = true
  dead : ∀ other < before.world.born, before.world.alive other = false →
    after.world.alive other = false
  born : before.world.born ≤ after.world.born
  pids : ∀ other < before.world.born,
    after.world.pidOf other = before.world.pidOf other
  volume : after.world.disk.volume = before.world.disk.volume
  drawn : ∀ name ∈ before.drawn, name ∈ after.drawn
  files : before.world.disk.nextFile ≤ after.world.disk.nextFile
  fixed : ∀ ref, ref.index < before.world.disk.nextFile →
    after.world.disk.origin ref = before.world.disk.origin ref ∧
    (after.world.disk.files ref).creator =
      (before.world.disk.files ref).creator
  grows : ∀ name ref, name ∈ before.drawn →
    before.world.disk.origin ref = some (.top name) →
      (before.world.disk.files ref).content <+:
        (after.world.disk.files ref).content
  written : ∀ name ref owner, name ∈ before.drawn →
    before.world.disk.origin ref = some (.top name) →
    (before.world.disk.files ref).creator = some owner →
    owner = process ∨ before.world.alive owner = false →
      after.world.disk.files ref = before.world.disk.files ref
  kept : ∀ name ref, hiddenName name = true →
    before.world.disk.entry (.top name) = some ref →
    (before.world.disk.files ref).creator = some process →
      after.world.disk.entry (.top name) = some ref
  gone : ∀ name ref, name ∈ before.drawn ∨
      (before.world.standing process).checked = some name →
    after.world.disk.entry (.top name) = some ref →
      before.world.disk.entry (.top name) = some ref

/-- A process that the step is not about. -/
theorem Shared.Spares.same {process : Process} {before after : Shared}
    (disk : after.world.disk = before.world.disk)
    (drawn : after.drawn = before.drawn)
    (standing : after.world.standing process =
      before.world.standing process)
    (alive : after.world.alive process = true)
    (dead : ∀ other < before.world.born, before.world.alive other = false →
      after.world.alive other = false)
    (born : before.world.born ≤ after.world.born)
    (pids : ∀ other < before.world.born,
      after.world.pidOf other = before.world.pidOf other) :
    before.Spares process after where
  standing := standing
  alive := alive
  dead := dead
  born := born
  pids := pids
  volume := by rw [disk]
  drawn := by
    rw [drawn]
    exact fun _ => id
  files := by rw [disk]
  fixed := by
    rw [disk]
    exact fun _ _ => ⟨rfl, rfl⟩
  grows := by
    rw [disk]
    exact fun _ _ _ _ => List.prefix_rfl
  written := by
    rw [disk]
    exact fun _ _ _ _ _ _ _ => rfl
  kept := by
    rw [disk]
    exact fun _ _ _ found _ => found
  gone := by
    rw [disk]
    exact fun _ _ _ => id

/-- More processes. -/
theorem Disk.Tended.mono {drawn : List Name} {born later : Nat}
    {pidOf changed : Process → Nat} {disk : Disk}
    (tended : disk.Tended drawn born pidOf) (more : born ≤ later)
    (pids : ∀ process < born, changed process = pidOf process) :
    disk.Tended drawn later changed where
  linked := tended.linked
  hidden := tended.hidden
  visible := tended.visible
  distinct := tended.distinct
  flat := tended.flat
  volume := tended.volume
  origin := by
    intro name ref origin
    refine (tended.origin name ref origin).imp id fun known isHidden => ?_
    obtain ⟨kind, owner, older, creator⟩ := known isHidden
    exact ⟨kind, owner, Nat.lt_of_lt_of_le older more, creator⟩
  text := by
    intro name ref member origin
    obtain ⟨owner, created, volume, file, filename, creator, rest⟩ :=
      tended.text name ref member origin
    have isHidden := hiddenName_of_marker (tended.drawn name member)
    obtain ⟨-, maker, older, same⟩ :=
      (tended.origin name ref origin).2 isHidden
    rw [creator] at same
    cases same
    refine ⟨owner, created, volume, file, filename, creator, ?_⟩
    rw [pids owner older]
    exact rest
  drawn := tended.drawn

/-- The processes change, and go by no other numbers than before. -/
theorem Shared.Settled.moved {before after : Shared}
    (settled : before.Settled)
    (disk : after.world.disk = before.world.disk)
    (drawn : after.drawn = before.drawn)
    (more : before.world.born ≤ after.world.born)
    (pids : ∀ process < before.world.born,
      after.world.pidOf process = before.world.pidOf process)
    (numbers : ∀ process < after.world.born, 0 < after.world.pidOf process ∧
      (after.world.pidOf process : Int) ≤ intMax)
    (born : ∀ process, after.world.alive process = true →
      process < after.world.born)
    (reading : ∀ process ref, after.world.alive process = true →
      (after.world.standing process).reading = some ref →
        before.world.alive process = true ∧
        (before.world.standing process).reading = some ref)
    (noted : ∀ process inode, after.world.alive process = true →
      (after.world.standing process).noted = some inode →
        before.world.alive process = true ∧
        (before.world.standing process).noted = some inode)
    (held : ∀ process, after.world.alive process = true →
      ∀ plugin ∈ (after.world.standing process).plugins,
        process < before.world.born ∧ before.Holds process plugin)
    (apart : ∀ process, after.world.alive process = true →
      (after.world.standing process).plugins.Pairwise fun first second =>
        first.marker ≠ second.marker ∧ first.fileId ≠ second.fileId) :
    after.Settled where
  tended := by
    rw [disk, drawn]
    exact settled.tended.mono more pids
  vouched := by
    intro owner inode vouched
    rw [disk]
    refine settled.vouched owner inode ?_
    cases vouched with
    | marker named linked creator recorded =>
        rw [disk] at linked creator recorded
        rw [drawn] at named
        exact .marker named linked creator recorded
    | reading alive opened creator recorded =>
        rw [disk] at creator recorded
        obtain ⟨living, same⟩ := reading _ _ alive opened
        exact .reading living same creator recorded
    | noted alive own =>
        obtain ⟨living, same⟩ := noted _ _ alive own
        exact .noted living same
  reads := by
    intro process ref alive opened
    rw [disk, drawn]
    obtain ⟨living, same⟩ := reading process ref alive opened
    exact settled.reads process ref living same
  born := born
  pids := numbers
  held := by
    intro process alive plugin member
    obtain ⟨older, named, anchor, known, marker, destination⟩ :=
      held process alive plugin member
    refine ⟨named, ?_, ?_, ?_, destination⟩
    · rw [disk]
      exact anchor
    · rw [drawn]
      exact known
    · rw [disk, pids process older]
      exact marker
  apart := apart

/-- The discipline of the processes. -/
def sparing : Discipline (pluginDirectory.under undoubted) where
  invariant := Shared.Settled
  rely self before after :=
    before.world.alive self = true → before.Spares self after
  good := sparesForeign

/-- What a step leaves of the processes. -/
structure Shared.Unmoved (actor : Option Process) (before after : Shared) :
    Prop where
  alive : after.world.alive = before.world.alive
  pids : after.world.pidOf = before.world.pidOf
  born : after.world.born = before.world.born
  plugins : ∀ process, (after.world.standing process).plugins =
    (before.world.standing process).plugins
  reading : ∀ process, (after.world.standing process).reading =
    (before.world.standing process).reading
  noted : ∀ process, (after.world.standing process).noted =
    (before.world.standing process).noted
  standing : ∀ process, actor ≠ some process →
    after.world.standing process = before.world.standing process
  drawn : ∃ more, after.drawn = before.drawn ++ more ∧
    ∀ name ∈ more, pluginMarkerName name = true

/-- What one step may do to the directory, made by a process or by a foreign
party. -/
structure Shared.Turns (actor : Option Process) (before after : Shared) : Prop
    extends Shared.Unmoved actor before after where
  volume : after.world.disk.volume = before.world.disk.volume
  files : before.world.disk.nextFile ≤ after.world.disk.nextFile
  flat : ∀ id, (after.world.disk.directories id).mode.regular = false
  fixed : ∀ ref, ref.index < before.world.disk.nextFile →
    after.world.disk.origin ref = before.world.disk.origin ref ∧
    (after.world.disk.files ref).creator =
      (before.world.disk.files ref).creator
  /-- A new file is under the name it was created under, and empty if that is
  the name of a marker. -/
  created : ∀ name ref, after.world.disk.origin ref = some (.top name) →
    before.world.disk.origin ref = some (.top name) ∨
      ref.index = before.world.disk.nextFile ∧
      ref.index < after.world.disk.nextFile ∧
      (name ∈ after.drawn → (after.world.disk.files ref).content = []) ∧
      (hiddenName name = true →
        (name ∈ after.drawn ∨ pluginPartialName name = true) ∧
        ∃ owner < before.world.born,
          (after.world.disk.files ref).creator = some owner)
  /-- An entry stays, is another link to a file, or leads to a new file. -/
  entries : ∀ name ref, after.world.disk.entry (.top name) = some ref →
    before.world.disk.entry (.top name) = some ref ∨
      name ∉ before.drawn ∧
      (∀ process, before.world.alive process = true →
        (before.world.standing process).checked ≠ some name) ∧
      ((hiddenName name = false ∧
          (∃ source, before.world.disk.entry (.top source) = some ref) ∧
          ∀ other ∈ before.drawn,
            before.world.disk.origin ref ≠ some (.top other)) ∨
        (before.world.disk.Fresh ref ∧ ref.inode < 2 ^ 64 ∧
          (∀ owner, ¬before.Vouched owner ref.inode) ∧
          ref.index < after.world.disk.nextFile ∧
          after.world.disk.origin ref = some (.top name)))
  /-- A hidden entry that goes led to a file of a dead process, or of the
  process itself and not to one that it holds. -/
  stays : ∀ name ref, hiddenName name = true →
    before.world.disk.entry (.top name) = some ref →
      after.world.disk.entry (.top name) = some ref ∨
        ∃ owner, (before.world.disk.files ref).creator = some owner ∧
          (before.world.alive owner = false ∨ actor = some owner ∧
            before.world.Spared owner name ref.inode)
  /-- A marker is written by its own process, and only what the process has
  noted. -/
  written : ∀ name ref, name ∈ before.drawn →
    before.world.disk.origin ref = some (.top name) →
      after.world.disk.files ref = before.world.disk.files ref ∨
        ∃ self created volume file filename, actor = some self ∧
          before.world.alive self = true ∧
          (before.world.disk.files ref).creator = some self ∧
          (before.world.disk.files ref).content <+:
            (after.world.disk.files ref).content ∧
          0 ≤ created ∧ volume < 2 ^ 64 ∧ file < 2 ^ 64 ∧
          (after.world.disk.files ref).content <+:
            pluginText (before.world.pidOf self) created volume file
              filename ∧
          (before.world.standing self).noted = some file ∧
          before.world.Spared self name ref.inode

namespace Shared.Turns

variable {actor : Option Process} {before after : Shared}

theorem drawn_mono (turns : Turns actor before after) {name : Name}
    (member : name ∈ before.drawn) : name ∈ after.drawn := by
  obtain ⟨more, same, -⟩ := turns.drawn
  rw [same]
  exact List.mem_append_left _ member

theorem hidden_of_drawn (settled : before.Settled)
    (turns : Turns actor before after) {name : Name}
    (member : name ∈ after.drawn) :
    hiddenName name = true ∧ pluginPartialName name = false := by
  obtain ⟨more, same, names⟩ := turns.drawn
  rw [same] at member
  have marker : pluginMarkerName name = true := by
    rcases List.mem_append.mp member with old | new
    · exact settled.tended.drawn name old
    · exact names name new
  exact ⟨hiddenName_of_marker marker, not_partial_of_marker marker⟩

/-- A file with the origin of a marker is an old marker or new and empty. -/
theorem origin_of_drawn (settled : before.Settled)
    (turns : Turns actor before after) {name : Name} {ref : FileRef}
    (member : name ∈ after.drawn)
    (origin : after.world.disk.origin ref = some (.top name)) :
    name ∈ before.drawn ∧ before.world.disk.origin ref = some (.top name) ∨
      (after.world.disk.files ref).content = [] := by
  rcases turns.created name ref origin with old | ⟨-, -, blank, -⟩
  · obtain ⟨isHidden, notPartial⟩ := hidden_of_drawn settled turns member
    obtain ⟨kind, -⟩ := (settled.tended.origin name ref old).2 isHidden
    rcases kind with known | other
    · exact Or.inl ⟨known, old⟩
    · rw [notPartial] at other
      cases other
  · exact Or.inr (blank member)

/-- Whatever a marker records after the step, its process was vouched for with
that number before. -/
theorem recorded_before (settled : before.Settled)
    (turns : Turns actor before after) {name : Name} {ref : FileRef}
    {owner : Process} {inode : Nat} (member : name ∈ before.drawn)
    (origin : before.world.disk.origin ref = some (.top name))
    (creator : (after.world.disk.files ref).creator = some owner)
    (recorded : recordedFile (after.world.disk.files ref).content =
      some inode) :
    (before.world.disk.files ref).creator = some owner ∧
      (recordedFile (before.world.disk.files ref).content = some inode ∨
        before.Vouched owner inode) := by
  obtain ⟨older, -⟩ := settled.tended.origin name ref origin
  rw [(turns.fixed ref older).2] at creator
  refine ⟨creator, ?_⟩
  rcases turns.written name ref member origin with same | ⟨self, created,
    volume, file, filename, -, living, maker, -, epoch, narrowVolume,
    narrowFile, text, noted, -⟩
  · rw [same] at recorded
    exact Or.inl recorded
  · rw [creator] at maker
    cases maker
    obtain ⟨-, small⟩ := settled.pids owner (settled.born owner living)
    rw [recordedFile_of_cut (by rw [intMax] at small; omega) epoch
      narrowVolume narrowFile text recorded]
    exact Or.inr (.noted living noted)

theorem vouched (settled : before.Settled)
    (turns : Turns actor before after) {owner : Process} {inode : Nat}
    (vouched : after.Vouched owner inode) : before.Vouched owner inode := by
  cases vouched with
  | @marker name ref owner inode member found creator recorded =>
      obtain ⟨isHidden, -⟩ := hidden_of_drawn settled turns member
      have blank : (after.world.disk.files ref).content ≠ [] := by
        intro empty
        rw [empty] at recorded
        cases recorded
      rcases turns.entries name ref found with old | ⟨-, -, moved | made⟩
      · have origin := settled.tended.hidden name ref old isHidden
        obtain ⟨older, -⟩ := settled.tended.origin name ref origin
        have origins : after.world.disk.origin ref = some (.top name) := by
          rw [(turns.fixed ref older).1, origin]
        obtain ⟨known, -⟩ :=
          (origin_of_drawn settled turns member origins).resolve_right blank
        obtain ⟨maker, records | vouched⟩ := recorded_before settled turns
          known origin creator recorded
        · exact .marker known old maker records
        · exact vouched
      · rw [isHidden] at moved
        cases moved.1
      · obtain ⟨known, origin⟩ := (origin_of_drawn settled turns member
          made.2.2.2.2).resolve_right blank
        have older := (settled.tended.origin name ref origin).1
        exact absurd made.1.1 older.ne
  | @reading process ref owner inode living opened creator recorded =>
      rw [turns.alive] at living
      rw [turns.reading] at opened
      obtain ⟨name, member, origin⟩ := settled.reads process ref living opened
      obtain ⟨maker, records | vouched⟩ := recorded_before settled turns
        member origin creator recorded
      · exact .reading living opened maker records
      · exact vouched
  | noted living own =>
      rw [turns.alive] at living
      rw [turns.noted] at own
      exact .noted living own

/-- An entry with a number that is vouched for led to the same file before. -/
theorem linked_before (turns : Turns actor before after) {owner : Process} {name : Name}
    {ref : FileRef} (vouched : before.Vouched owner ref.inode)
    (found : after.world.disk.entry (.top name) = some ref) :
    ∃ source, before.world.disk.entry (.top source) = some ref := by
  rcases turns.entries name ref found with old | ⟨-, -, moved | made⟩
  · exact ⟨name, old⟩
  · exact moved.2.1
  · exact absurd vouched (made.2.2.1 owner)

theorem onlyBy (settled : before.Settled)
    (turns : Turns actor before after) {owner : Process} {inode : Nat}
    (vouched : before.Vouched owner inode) :
    after.world.disk.OnlyBy owner inode := by
  rintro name ref found rfl
  obtain ⟨source, linked⟩ := turns.linked_before vouched found
  rw [(turns.fixed ref (settled.tended.linked source ref linked).1).2]
  exact settled.vouched owner _ vouched source ref linked rfl

private theorem distinct (settled : before.Settled)
    (turns : Turns actor before after) :
    after.world.disk.DistinctInodes := by
  have linked : ∀ name ref, after.world.disk.entry (.top name) = some ref →
      (∃ source, before.world.disk.entry (.top source) = some ref) ∨
        before.world.disk.Fresh ref := by
    intro name ref found
    rcases turns.entries name ref found with old | ⟨-, -, moved | made⟩
    · exact Or.inl ⟨name, old⟩
    · exact Or.inl moved.2.1
    · exact Or.inr made.1
  intro first second ref other one two same
  rcases linked first ref one with ⟨source, old⟩ | fresh
  · rcases linked second other two with ⟨target, older⟩ | newer
    · exact settled.tended.distinct source target ref other old older same
    · refine absurd (mem_inodes_of_entry old) ?_
      rw [same]
      exact newer.2.2
  · rcases linked second other two with ⟨target, older⟩ | newer
    · refine absurd (mem_inodes_of_entry older) ?_
      rw [← same]
      exact fresh.2.2
    · obtain ⟨index, inode⟩ := ref
      obtain ⟨position, number⟩ := other
      have here : index = before.world.disk.nextFile := fresh.1
      have there : position = before.world.disk.nextFile := newer.1
      cases same
      rw [here, there]

theorem tended (settled : before.Settled)
    (turns : Turns actor before after) :
    after.world.disk.Tended after.drawn after.world.born
      after.world.pidOf where
  linked := by
    intro name ref found
    rcases turns.entries name ref found with old | ⟨-, -, moved | made⟩
    · obtain ⟨older, rest⟩ := settled.tended.linked name ref old
      exact ⟨Nat.lt_of_lt_of_le older turns.files, rest⟩
    · obtain ⟨source, old⟩ := moved.2.1
      obtain ⟨older, rest⟩ := settled.tended.linked source ref old
      exact ⟨Nat.lt_of_lt_of_le older turns.files, rest⟩
    · exact ⟨made.2.2.2.1, made.1.2.1, made.2.1⟩
  hidden := by
    intro name ref found isHidden
    rcases turns.entries name ref found with old | ⟨-, -, moved | made⟩
    · rw [(turns.fixed ref (settled.tended.linked name ref old).1).1]
      exact settled.tended.hidden name ref old isHidden
    · rw [isHidden] at moved
      cases moved.1
    · exact made.2.2.2.2
  visible := by
    intro name ref found isVisible other member origin
    obtain ⟨isHidden, -⟩ := hidden_of_drawn settled turns member
    have old : ∀ source,
        before.world.disk.entry (.top source) = some ref →
        (∀ marker ∈ before.drawn,
          before.world.disk.origin ref ≠ some (.top marker)) → False := by
      intro source linked plain
      have older := (settled.tended.linked source ref linked).1
      rw [(turns.fixed ref older).1] at origin
      obtain ⟨kind, -⟩ := (settled.tended.origin other ref origin).2 isHidden
      rcases kind with known | isPartial
      · exact plain other known origin
      · rw [(hidden_of_drawn settled turns member).2] at isPartial
        cases isPartial
    rcases turns.entries name ref found with linked | ⟨-, -, moved | made⟩
    · exact old name linked (settled.tended.visible name ref linked isVisible)
    · obtain ⟨source, linked⟩ := moved.2.1
      exact old source linked moved.2.2
    · have same := made.2.2.2.2
      rw [origin] at same
      cases same
      rw [isHidden] at isVisible
      cases isVisible
  distinct := distinct settled turns
  flat := turns.flat
  volume := by
    rw [turns.volume]
    exact settled.tended.volume
  origin := by
    intro name ref origin
    rcases turns.created name ref origin with old | ⟨-, newer, -, made⟩
    · obtain ⟨older, known⟩ := settled.tended.origin name ref old
      refine ⟨Nat.lt_of_lt_of_le older turns.files, fun isHidden => ?_⟩
      obtain ⟨kind, owner, born, creator⟩ := known isHidden
      refine ⟨kind.imp_left turns.drawn_mono, owner, ?_, ?_⟩
      · rw [turns.born]
        exact born
      · rw [(turns.fixed ref older).2, creator]
    · refine ⟨newer, fun isHidden => ?_⟩
      rw [turns.born]
      exact made isHidden
  text := by
    intro name ref member origin
    obtain ⟨isHidden, -⟩ := hidden_of_drawn settled turns member
    rw [turns.pids]
    rcases turns.created name ref origin with old | ⟨-, -, blank, made⟩
    · have older := (settled.tended.origin name ref old).1
      rcases origin_of_drawn settled turns member origin with
        ⟨known, -⟩ | blank
      · rcases turns.written name ref known old with same | ⟨self, created,
          volume, file, filename, -, -, creator, -, epoch, narrowVolume,
          narrowFile, text, -⟩
        · rw [same]
          exact settled.tended.text name ref known old
        · refine ⟨self, created, volume, file, filename, ?_, epoch,
            narrowVolume, narrowFile, text⟩
          rw [(turns.fixed ref older).2, creator]
      · obtain ⟨-, owner, -, creator⟩ :=
          (settled.tended.origin name ref old).2 isHidden
        refine ⟨owner, 0, 0, 0, [], ?_, by decide, by decide, by decide, ?_⟩
        · rw [(turns.fixed ref older).2, creator]
        · rw [blank]
          exact List.nil_prefix
    · obtain ⟨-, owner, -, creator⟩ := made isHidden
      refine ⟨owner, 0, 0, 0, [], creator, by decide, by decide, by decide,
        ?_⟩
      rw [blank member]
      exact List.nil_prefix
  drawn := by
    obtain ⟨more, same, names⟩ := turns.drawn
    intro name member
    rw [same] at member
    rcases List.mem_append.mp member with old | new
    · exact settled.tended.drawn name old
    · exact names name new

/-- A hidden entry of a live process that it holds is not taken away. -/
private theorem stays_held (turns : Turns actor before after)
    {owner : Process} {name : Name} {ref : FileRef}
    (living : before.world.alive owner = true)
    (isHidden : hiddenName name = true)
    (found : before.world.disk.entry (.top name) = some ref)
    (creator : (before.world.disk.files ref).creator = some owner)
    (held : ¬before.world.Spared owner name ref.inode) :
    after.world.disk.entry (.top name) = some ref := by
  rcases turns.stays name ref isHidden found with same | ⟨other, maker,
    dead | ⟨-, spared⟩⟩
  · exact same
  · rw [creator] at maker
    cases maker
    rw [living] at dead
    cases dead
  · rw [creator] at maker
    cases maker
    exact absurd spared held

private theorem holds (settled : before.Settled)
    (turns : Turns actor before after) {process : Process} {plugin : Plugin}
    (living : before.world.alive process = true)
    (member : plugin ∈ (before.world.standing process).plugins) :
    after.Holds process plugin := by
  obtain ⟨named, ⟨ref, linked, creator, inode, volume⟩, drawn, ⟨marker,
    created, placed, maker, epoch, text⟩, markable⟩ :=
    settled.held process living plugin member
  have markerName := settled.tended.drawn plugin.marker drawn
  have isHidden := hiddenName_of_marker markerName
  have origin := settled.tended.hidden plugin.marker marker placed isHidden
  have older := (settled.tended.linked plugin.marker marker placed).1
  refine ⟨named, ⟨ref, ?_, ?_, inode, ?_⟩, turns.drawn_mono drawn, ⟨marker,
    created, ?_, ?_, epoch, ?_⟩, markable⟩
  · exact turns.stays_held living (hiddenName_of_partialName named) linked creator
      fun spared => (spared plugin member).2 inode.symm
  · rw [(turns.fixed ref (settled.tended.linked _ ref linked).1).2, creator]
  · rw [turns.volume]
    exact volume
  · exact turns.stays_held living isHidden placed maker
      fun spared => (spared plugin member).1 rfl
  · rw [(turns.fixed marker older).2, maker]
  · rw [turns.pids]
    rcases turns.written plugin.marker marker drawn origin with same | ⟨self,
      -, -, -, -, -, -, writer, -, -, -, -, -, -, spared⟩
    · rw [same, text]
    · rw [maker] at writer
      cases writer
      exact absurd rfl (spared plugin member).1

/-- The invariant survives a step. -/
theorem settled (settled : before.Settled)
    (turns : Turns actor before after) : after.Settled where
  tended := turns.tended settled
  vouched owner inode vouched :=
    turns.onlyBy settled (turns.vouched settled vouched)
  reads := by
    intro process ref living opened
    rw [turns.alive] at living
    rw [turns.reading] at opened
    obtain ⟨name, member, origin⟩ := settled.reads process ref living opened
    refine ⟨name, turns.drawn_mono member, ?_⟩
    rw [(turns.fixed ref (settled.tended.origin name ref origin).1).1, origin]
  born := by
    rw [turns.alive, turns.born]
    exact settled.born
  pids := by
    rw [turns.pids, turns.born]
    exact settled.pids
  held := by
    intro process living plugin member
    rw [turns.alive] at living
    rw [turns.plugins] at member
    exact turns.holds settled living member
  apart := by
    intro process living
    rw [turns.alive] at living
    rw [turns.plugins]
    exact settled.apart process living

/-- A step spares every live process that does not make it. -/
theorem spares (turns : Turns actor before after) {other : Process}
    (different : actor ≠ some other)
    (living : before.world.alive other = true) :
    before.Spares other after where
  standing := turns.standing other different
  alive := by
    rw [turns.alive, living]
  dead := by
    intro process _ dead
    rw [turns.alive, dead]
  born := turns.born.ge
  pids := by
    intro process _
    rw [turns.pids]
  volume := turns.volume
  drawn _ member := turns.drawn_mono member
  files := turns.files
  fixed := turns.fixed
  grows := by
    intro name ref member origin
    rcases turns.written name ref member origin with same | ⟨_, _, _, _, _,
      _, _, _, grows, -⟩
    · exact same.symm ▸ List.prefix_rfl
    · exact grows
  written := by
    intro name ref owner member origin creator safe
    rcases turns.written name ref member origin with same | ⟨self, _, _, _,
      _, acting, alive, maker, -⟩
    · exact same
    · rw [creator] at maker
      cases maker
      rcases safe with rfl | dead
      · exact absurd acting different
      · rw [alive] at dead
        cases dead
  kept := by
    intro name ref isHidden found creator
    rcases turns.stays name ref isHidden found with same | ⟨owner, maker,
      dead | ⟨acting, -⟩⟩
    · exact same
    · rw [creator] at maker
      cases maker
      rw [living] at dead
      cases dead
    · rw [creator] at maker
      cases maker
      exact absurd acting different
  gone := by
    intro name ref watched found
    rcases turns.entries name ref found with old | ⟨undrawn, unexamined, -⟩
    · exact old
    · rcases watched with known | checked
      · exact absurd known undrawn
      · exact absurd checked (unexamined other living)

end Shared.Turns

end RymgaLoader.Native
