import RymgaLoader.Native.WindowsPlatform

/-!
# Markers read back

What `create_plugin_marker` and `create_marker` print fits its buffers on
either platform, and `parse_plugin_marker` and the `sscanf` of
`stale_owned_directory` read back what was printed.
-/

namespace RymgaLoader.Native

open Scan

/-- What Windows says of a process that has ended: nothing, or its exit code
for as long as someone holds it open, unless the user may not ask. -/
inductive Ended
  | forgotten
  | exited (code : UInt32)
  | hidden
  deriving DecidableEq, Repr

def Ended.process : Ended → ProcessResult
  | .forgotten => .failed
  | .exited _ => .opened
  | .hidden => .accessDenied

def Ended.exitCode : Ended → Option UInt32
  | .exited code => some code
  | _ => none

/-- Neither the exit code nor a refusal makes the process look alive. -/
def Ended.Gone (ended : Ended) : Prop :=
  ended ≠ .exited stillActive ∧ ended ≠ .hidden

instance (ended : Ended) : Decidable ended.Gone :=
  inferInstanceAs (Decidable (_ ∧ _))

/-- Files are opened and read as they are, a signal finds no process that has
ended, and Windows says of it what `ended` tells. -/
def honest (ended : Int → Ended) (call : Call) (world : World)
    (answer : Answer call) : Prop :=
  match call, answer with
  | .openRead place, answer => answer = world.disk.openFile place
  | .read ref count, answer =>
      answer = some ((world.disk.files ref).content.take count)
  | .fstat ref, answer => answer = some (world.disk.statFile ref)
  | .kill pid, answer => world.hasPid pid = false → answer = .noSuchProcess
  | .openProcess pid, answer =>
      world.hasPid pid = false → answer = (ended pid).process
  | .exitCode pid, answer =>
      world.hasPid pid = false → answer = (ended pid).exitCode
  | _, _ => True

variable {self : Process} {before after : World} {ended : Int → Ended}

theorem exists_honest {world : World} (ready : world.Idle self)
    (call : Call) : ∃ answer after,
      alone self (honest ended) call world answer after ∧ after.Idle self := by
  have quiet (call : Call) (answer : Answer call)
      (unscanned : call.scans = false)
      (possible : ∃ after, world.exec self call answer = some after)
      (true : honest ended call world answer) :
      ∃ answer after, alone self (honest ended) call world answer after ∧
        after.Idle self := by
    obtain ⟨after, done⟩ := possible
    exact ⟨answer, after, ⟨done, true⟩, ready.exec done unscanned⟩
  cases call
  case openRead place =>
      refine quiet _ (world.disk.openFile place) rfl ?_ rfl
      cases found : world.disk.openFile place with
      | none => exact ⟨_, rfl⟩
      | some ref =>
          simp only [World.exec, World.effect]
          cases place <;> exact ⟨_, if_pos found⟩
  case read ref count =>
      refine quiet _ _ rfl ?_ rfl
      simp only [World.exec, World.effect]
      exact ⟨_, if_pos rfl⟩
  case fstat ref =>
      refine quiet _ _ rfl ?_ rfl
      simp only [World.exec, World.effect]
      exact ⟨_, if_pos rfl⟩
  case kill pid =>
      cases present : world.hasPid pid with
      | false =>
          refine quiet _ .noSuchProcess rfl ?_ fun _ => rfl
          simp only [World.exec, World.effect]
          refine ⟨_, if_neg ?_⟩
          rintro ⟨alive, -⟩
          rw [← Bool.not_eq_true] at present
          exact present alive
      | true =>
          refine quiet _ .delivered rfl ?_ fun absent => ?_
          · simp only [World.exec, World.effect]
            exact ⟨_, if_neg fun both => both.2 rfl⟩
          · rw [present] at absent
            cases absent
  case openProcess pid =>
      cases present : world.hasPid pid with
      | false =>
          refine quiet _ (ended pid).process rfl ?_ fun _ => rfl
          simp only [World.exec, World.effect]
          refine ⟨_, if_neg ?_⟩
          rintro ⟨alive, -⟩
          rw [← Bool.not_eq_true] at present
          exact present alive
      | true =>
          refine quiet _ .opened rfl ?_ fun absent => ?_
          · simp only [World.exec, World.effect]
            exact ⟨_, if_neg (by simp)⟩
          · rw [present] at absent
            cases absent
  case exitCode pid =>
      cases present : world.hasPid pid with
      | false =>
          refine quiet _ (ended pid).exitCode rfl ?_ fun _ => rfl
          cases told : (ended pid).exitCode with
          | none => exact ⟨_, rfl⟩
          | some code =>
              simp only [World.exec, World.effect]
              refine ⟨_, if_neg ?_⟩
              rintro ⟨alive, -⟩
              rw [← Bool.not_eq_true] at present
              exact present alive
      | true =>
          refine quiet _ none rfl ⟨_, rfl⟩ fun absent => ?_
          rw [present] at absent
          cases absent
  all_goals
    obtain ⟨after, done, readyAfter⟩ :=
      World.exists_exec_plainAnswer ready _
    exact ⟨_, after, ⟨done, trivial⟩, readyAfter⟩

theorem exists_runs_honest {α : Type} (program : Os α)
    (idle : before.Idle self) :
    ∃ value after, Program.Runs (alone self (honest ended)) program before
      value after := by
  obtain ⟨value, after, run, -⟩ := Program.exists_runs
    (fun call _ ready => exists_honest ready call) program idle
  exact ⟨value, after, run⟩

/-- Every such run of the parser reads this record, and there is one. -/
def ReadsBack (ended : Int → Ended) (self : Process)
    (parser : Os (Option PluginRecord)) (before : World)
    (record : PluginRecord) : Prop :=
  (∃ found after,
    Program.Runs (alone self (honest ended)) parser before found after) ∧
  ∀ found after,
    Program.Runs (alone self (honest ended)) parser before found after →
      found = some record

theorem readsBack_of_wp {parser : Os (Option PluginRecord)}
    {record : PluginRecord} (idle : before.Idle self)
    (reads : Program.wp (alone self (honest ended)) parser
      (fun found _ => found = some record) before) :
    ReadsBack ended self parser before record :=
  ⟨exists_runs_honest parser idle, Program.wp_iff_runs.mp reads⟩

theorem readMarker_honest {marker : Name} {ref : FileRef}
    (linked : before.disk.entry (.top marker) = some ref)
    (readable : posixPlugins.readable marker (before.disk.files ref) = true) :
    Program.wp (alone self (honest ended)) (readMarker (.top marker) 799)
      (fun found after => after.hasPid = before.hasPid ∧
        found = some (before.disk.files ref).content) before := by
  simp only [posixPlugins, Bool.and_eq_true, decide_eq_true_eq] at readable
  obtain ⟨⟨⟨permitted, mode⟩, nonempty⟩, short⟩ := readable
  simp only [readMarker, Program.perform_bind]
  refine wp_resting rfl fun answer opened answered disk pids => ?_
  have found : answer = some ref :=
    answered.2.trans (Disk.openFile_top linked permitted)
  subst found
  refine wp_resting rfl fun answer read answered readDisk readPids => ?_
  have content : answer = some (before.disk.files ref).content := by
    have taken := answered.2
    simp only [honest, disk] at taken
    rw [taken, List.take_of_length_le short]
  subst content
  dsimp only
  rw [if_neg nonempty]
  refine wp_resting rfl fun answer after answered sameDisk samePids => ?_
  have told : answer = some (before.disk.statFile ref) := by
    have shown := answered.2
    simpa only [honest, readDisk, disk] using shown
  subst told
  dsimp only
  rw [if_pos (by simpa [Disk.statFile, and_assoc] using mode)]
  exact ⟨samePids.trans (readPids.trans pids), rfl⟩

theorem parsePluginMarker_honest {marker : Name} {ref : FileRef} {pid : Int}
    {record : PluginRecord}
    (linked : before.disk.entry (.top marker) = some ref)
    (readable : posixPlugins.readable marker (before.disk.files ref) = true)
    (read : pluginRecord (before.disk.files ref).content = some (pid, record))
    (signals : posixPlugins.signals pid = true)
    (dead : before.hasPid pid = false) :
    Program.wp (alone self (honest ended)) (parsePluginMarker marker)
      (fun found _ => found = some record) before := by
  obtain ⟨created, hex, scanned, epoch, marked⟩ :=
    pluginRecordWith_eq_some_iff.mp read
  simp only [posixPlugins, decide_eq_true_eq] at signals
  simp only [parsePluginMarker]
  rw [Program.wp_bind]
  refine Program.wp_mono (readMarker_honest linked readable) ?_
  rintro content told ⟨pids, rfl⟩
  dsimp only
  rw [scanned]
  dsimp only
  rw [if_neg (by omega), Program.wp_bind]
  simp only [deadProcess, Program.perform_bind]
  rw [if_neg (by omega)]
  intro answer after answered
  have missing : answer = .noSuchProcess := answered.2 (pids ▸ dead)
  subst missing
  dsimp only
  rw [marked]
  rfl

namespace Windows

variable {pluginDirectory : Bytes}

theorem readMarker_honest {place : Place} {capacity : Nat} {ref : FileRef}
    (found : before.disk.openFile place = some ref)
    (regular : (before.disk.files ref).mode.regular = true)
    (filled : 0 < (before.disk.files ref).content.length)
    (short : (before.disk.files ref).content.length < capacity) :
    Program.wp (alone self (honest ended)) (readMarker place capacity)
      (fun read after => after.disk = before.disk ∧
        after.hasPid = before.hasPid ∧
        read = some (before.disk.files ref).content) before := by
  simp only [readMarker, Program.perform_bind]
  refine wp_resting rfl fun answer opened answered disk pids => ?_
  have same : answer = some ref := answered.2.trans found
  subst same
  refine wp_resting rfl fun answer told answered toldDisk toldPids => ?_
  have shown : answer = some (before.disk.statFile ref) := by
    have same := answered.2
    simpa only [honest, disk] using same
  subst shown
  dsimp only
  rw [if_neg (by simp [Disk.statFile, regular, short, filled])]
  refine wp_resting rfl fun answer after answered sameDisk samePids => ?_
  have content : answer = some (before.disk.files ref).content := by
    have taken := answered.2
    simp only [honest, toldDisk, disk] at taken
    rw [taken, Disk.statFile, List.take_length]
  subst content
  have whole : (before.disk.files ref).content.length =
      (before.disk.statFile ref).size := rfl
  dsimp only
  rw [if_pos whole]
  exact ⟨sameDisk.trans (toldDisk.trans disk),
    samePids.trans (toldPids.trans pids), rfl⟩

/-- A process that has ended is taken to be alive unless it is gone. -/
theorem processIsAlive_honest {pid : Int} (dead : before.hasPid pid = false) :
    Program.wp (alone self (honest ended)) (processIsAlive pid)
      (fun alive after => after.disk = before.disk ∧
        (alive = false ↔ (ended pid).Gone)) before := by
  simp only [processIsAlive, Program.perform_bind]
  refine wp_resting rfl fun answer opened answered disk pids => ?_
  have told : answer = (ended pid).process := answered.2 dead
  subst told
  cases state : ended pid with
  | forgotten => exact ⟨disk, iff_of_true rfl ⟨by simp, by simp⟩⟩
  | hidden => exact ⟨disk, iff_of_false (by simp) fun gone => gone.2 rfl⟩
  | exited exit =>
      refine wp_resting rfl fun answer after answered sameDisk same => ?_
      have shown : answer = (ended pid).exitCode :=
        answered.2 ((congrFun pids pid).trans dead)
      rw [state] at shown
      subst shown
      refine ⟨sameDisk.trans disk, ?_⟩
      simp [Ended.Gone]

theorem parsePluginMarker_honest {marker : Name} {ref : FileRef} {pid : Int}
    {record : PluginRecord}
    (linked : before.disk.entry (.top marker) = some ref)
    (readable : (plugins pluginDirectory).readable marker
      (before.disk.files ref) = true)
    (read : pluginRecord (before.disk.files ref).content = some (pid, record))
    (signals : pid ≠ 0) (dead : before.hasPid pid = false) :
    Program.wp (alone self (honest ended))
      (parsePluginMarker pluginDirectory marker)
      (fun found _ => found =
        if (ended pid).Gone then some record else none) before := by
  obtain ⟨created, hex, scanned, epoch, marked⟩ :=
    pluginRecordWith_eq_some_iff.mp read
  simp only [plugins, Bool.and_eq_true, decide_eq_true_eq] at readable
  obtain ⟨⟨⟨⟨usable, permitted⟩, regular⟩, filled⟩, short⟩ := readable
  simp only [parsePluginMarker]
  rw [if_neg (by simp [usable]), Program.wp_bind]
  refine Program.wp_mono (readMarker_honest
    (Disk.openFile_top linked permitted) regular filled short) ?_
  rintro content told ⟨-, pids, rfl⟩
  dsimp only
  rw [scanned]
  dsimp only
  rw [if_neg (by omega), Program.wp_bind]
  refine Program.wp_mono (processIsAlive_honest (pids ▸ dead)) ?_
  rintro alive after ⟨-, gone⟩
  cases alive with
  | true => exact (if_neg fun met => by simpa using gone.mpr met).symm
  | false =>
      rw [if_pos (gone.mp rfl), marked]
      rfl

/-- The marker is read back exactly when its process is gone. -/
theorem readsBack_iff {marker : Name} {ref : FileRef} {pid : Int}
    {record : PluginRecord} (idle : before.Idle self)
    (linked : before.disk.entry (.top marker) = some ref)
    (readable : (plugins pluginDirectory).readable marker
      (before.disk.files ref) = true)
    (read : pluginRecord (before.disk.files ref).content = some (pid, record))
    (signals : pid ≠ 0) (dead : before.hasPid pid = false) :
    ReadsBack ended self (parsePluginMarker pluginDirectory marker) before
      record ↔ (ended pid).Gone := by
  have parsed : ∀ found after, Program.Runs (alone self (honest ended))
      (parsePluginMarker pluginDirectory marker) before found after →
        found = if (ended pid).Gone then some record else none :=
    Program.wp_iff_runs.mp
      (parsePluginMarker_honest linked readable read signals dead)
  constructor
  · rintro ⟨⟨found, after, run⟩, reads⟩
    by_contra looksAlive
    have nothing := parsed found after run
    rw [if_neg looksAlive, reads found after run] at nothing
    cases nothing
  · intro gone
    refine ⟨exists_runs_honest _ idle, fun found after run => ?_⟩
    rw [parsed found after run, if_pos gone]

theorem pluginText_eq (pid : Nat) (created : Int64) (volume file : Nat)
    (filename : Name) :
    pluginText pid created volume file (Hex.encode filename) =
      Native.pluginText pid created volume file filename := by
  rw [pluginText, Native.pluginText, printSigned_natCast]

theorem ownerText_eq (pid : Nat) (created : Int64) (name : Name) :
    ownerText pid created name = Native.ownerText pid created name := by
  rw [ownerText, Native.ownerText, printSigned_natCast]

theorem scanPid_reads {pid : Nat} (small : pid < 2 ^ 32) :
    ReadsPid scanPid pid := by
  intro rest ends
  rw [scanPid, scanUnsigned_decimal (by omega) ends]
  simp only [Option.map_some]
  rw [Nat.mod_eq_of_lt small]

theorem scanPid_cuts (pid : Nat) : CutsPid scanPid pid := by
  intro input rest scanned cut number
  cases input with
  | nil => cases number
  | cons byte input =>
      obtain ⟨rfl, within⟩ := List.cons_prefix_cons.mp cut
      simp only [scanPid, scanUnsigned, scanNumber_space,
        Option.map_map, Option.map_eq_some_iff] at number
      obtain ⟨⟨negative, magnitude, left⟩, found, same⟩ := number
      cases same
      exact scanNumber_cut within found

/-- However much of the text is in the file, a marker that scans names the
process that wrote it. -/
theorem scanOwner_of_cut {pid : Nat} {created : Int64} {name : Name}
    {content : Bytes} (small : pid < 2 ^ 32)
    (cut : content <+: Native.ownerText pid created name)
    {scannedPid scanned : Int} {scannedName : Name}
    (found : scanOwner content = some (scannedPid, scanned, scannedName)) :
    scannedPid = pid :=
  scanOwnerWith_of_cut (scanPid_reads small) (scanPid_cuts pid) cut found

theorem baseName_slashed {name : Name} (noSlash : 0x2F ∉ name)
    (noBackslash : 0x5C ∉ name) (directory : Bytes) :
    baseName (slashed directory name) = name := by
  have forward : strrchr (slashed directory name) 0x2F =
      some (0x2F :: name) := strrchr_append noSlash
  have backward : strrchr (slashed directory name) 0x5C =
      (strrchr directory 0x5C).map (· ++ 0x2F :: name) :=
    strrchr_append_right (by simp [noBackslash])
  simp only [baseName, forward, backward]
  cases strrchr directory 0x5C with
  | none => rfl
  | some found =>
      have further : ¬(found ++ 0x2F :: name).length <
          ((0x2F : UInt8) :: name).length := by
        rw [List.length_append]
        omega
      simp only [Option.map_some]
      rw [if_neg further]
      rfl

end Windows

theorem plain_of_temp {name : Name}
    (letters : ∀ byte ∈ name, alphanumeric byte = true ∨ byte = 0x2D) :
    0x2F ∉ name ∧ 0x5C ∉ name := by
  constructor
  · intro slash
    exact absurd (letters _ slash) (by decide)
  · intro backslash
    exact absurd (letters _ backslash) (by decide)

/-- A plugin marker of this process on POSIX: the digits and the text fit
their buffers, and when the process has ended the marker reads back. -/
structure PluginReadsBack (pid : Nat) (created : Int64)
    (record : PluginRecord) : Prop where
  digits : (Hex.encode record.filename).length < 511
  fits : (pluginText pid created record.volume record.file
    record.filename).length < 800
  reads : ∀ (ended : Int → Ended) (self : Process) (before : World)
    (marker : Name) (ref : FileRef), before.Idle self →
    before.disk.entry (.top marker) = some ref →
    (before.disk.files ref).content =
      pluginText pid created record.volume record.file record.filename →
    (before.disk.files ref).mode = .privateFile →
    before.hasPid pid = false →
      ReadsBack ended self (parsePluginMarker marker) before record

theorem pluginReadsBack {pid : Nat} {created : Int64} {record : PluginRecord}
    (positive : 1 ≤ pid) (narrow : (pid : Int) ≤ intMax) (epoch : 0 ≤ created)
    (narrowVolume : record.volume < 2 ^ 64) (narrowFile : record.file < 2 ^ 64)
    (markable : MarkableName record.filename) :
    PluginReadsBack pid created record := by
  have short := markable.short
  have small : pid < 2 ^ 63 := by
    unfold intMax at narrow
    omega
  have fits := length_pluginText small epoch narrowVolume narrowFile short
  refine ⟨?_, fits, ?_⟩
  · rw [Hex.length_encode]
    omega
  · intro ended self before marker ref idle linked content mode dead
    refine readsBack_of_wp idle (parsePluginMarker_honest linked ?_ ?_ ?_ dead)
    · have nonempty : pluginText pid created record.volume record.file
          record.filename ≠ [] := by
        unfold pluginText
        exact List.append_ne_nil_of_right_ne_nil _ (List.cons_ne_nil _ _)
      simp only [posixPlugins, mode, content, Bool.and_eq_true,
        decide_eq_true_eq]
      exact ⟨⟨⟨rfl, ⟨rfl, rfl⟩, rfl⟩, nonempty⟩, by omega⟩
    · rw [content]
      exact pluginRecord_pluginText small epoch narrowVolume narrowFile
        markable
    · simp only [posixPlugins, decide_eq_true_eq]
      omega

namespace Windows

/-- The entry is a marker of the process with this text of some time. -/
def Holds (owner : Process) (text : Int64 → Bytes) (name : Name)
    (world : World) : Prop :=
  ∃ marker created, (0 : Int64) ≤ created ∧
    world.disk.entry (.top name) = some marker ∧
    world.disk.files marker = ⟨text created, .privateFile, some owner⟩

section

variable {allowed : (call : Call) → World → Answer call → Prop}
  {pluginDirectory : Bytes} {volume file : Nat} {hex : Bytes}

theorem writeWhole_wp {marker : FileRef} {content : Bytes} :
    Program.wp (alone self allowed) (writeWhole marker content)
      (fun ok after => ok = true →
        after.disk = before.disk.append marker content) before := by
  simp only [writeWhole, Program.perform_bind]
  intro answer written answered
  dsimp only
  split
  · rename_i whole
    refine wp_quiet rfl fun synced after _ same _ => ?_
    rcases World.exec_write answered.1 with ⟨rfl, -⟩ | ⟨count, rfl, -, grown⟩
    · cases whole
    · cases whole
      rw [same, grown, List.take_length]
  · rintro ⟨⟩

theorem closeMarker_wp {place : Place} {written : Bool} :
    Program.wp (alone self allowed) (closeMarker place written)
      (fun ok after => ok = true →
        written = true ∧ after.disk = before.disk) before := by
  simp only [closeMarker, Program.perform_bind]
  refine wp_quiet rfl fun closed after _ same => ?_
  split
  · rename_i both
    exact fun _ => ⟨((Bool.and_eq_true _ _).mp both).1, same⟩
  · rintro answer last - ⟨⟩

/-- A marker that was created and is reported to be written holds its text. -/
theorem writePluginMarker_wp {name : Name} {marker : FileRef}
    (linked : before.disk.entry (.top name) = some marker)
    (blank : before.disk.files marker = ⟨[], .privateFile, some self⟩) :
    Program.wp (alone self allowed)
      (writePluginMarker marker name volume file hex)
      (fun ok after => ok = true →
        Holds self (pluginText (before.pidOf self) · volume file hex) name
          after) before := by
  simp only [writePluginMarker, Program.perform_bind]
  intro pid afterPid answeredPid
  obtain ⟨rfl, samePid⟩ := World.exec_getpid answeredPid.1
  intro created afterTime answeredTime
  obtain ⟨epoch, sameTime⟩ := World.exec_time answeredTime.1
  have start : afterTime.disk = before.disk := sameTime.trans samePid
  dsimp only
  split
  · rw [Program.wp_bind]
    refine Program.wp_mono writeWhole_wp ?_
    intro written afterWrite grown
    refine Program.wp_mono closeMarker_wp ?_
    intro ok after finished done
    obtain ⟨whole, same⟩ := finished done
    have disk := same.trans (grown whole)
    refine ⟨marker, created, epoch, ?_, ?_⟩
    · rw [disk, start]
      exact linked
    · rw [disk, start, Disk.append, Disk.setFile, blank]
      exact Function.update_self ..
  · have closes : Program.wp (alone self allowed)
        (closeMarker (.top name) false) _ afterTime := closeMarker_wp
    refine Program.wp_mono closes ?_
    intro ok after finished done
    cases (finished done).1

theorem fitted_eq {name : Name} (fits : opens pluginDirectory name = true) :
    fitted pluginDirectory name = name :=
  drop_take_slashed (of_decide_eq_true ((Bool.and_eq_true _ _).mp fits).1)

theorem markerAttempts_wp {attempts : Nat} {path : Name} :
    Program.wp (alone self allowed)
      (markerAttempts pluginDirectory volume file hex attempts path)
      (fun result after => result.1 = true →
        opens pluginDirectory result.2 = true ∧
        Holds self (pluginText (before.pidOf self) · volume file hex) result.2
          after) before := by
  induction attempts generalizing path before with
  | zero => rintro ⟨⟩
  | succ attempts ih =>
      simp only [markerAttempts, Program.perform_bind]
      intro random drawn answeredRandom
      have pids := (World.exec_frame answeredRandom.1).2.1
      dsimp only
      split
      · rintro ⟨⟩
      rename_i fits
      have usable : opens pluginDirectory (markerNameOf random) = true := by
        simpa using fits
      rw [fitted_eq usable]
      intro opened created answered
      have createdPids := (World.exec_frame answered.1).2.1.trans pids
      rcases World.exec_openExcl answered.1 with ⟨notOpened, -⟩ |
        ⟨marker, slot, rfl, resolved, -, -, disk⟩
      · cases opened with
        | opened ref => exact absurd rfl (notOpened ref)
        | failed => rintro ⟨⟩
        | occupied =>
            rw [← createdPids]
            exact ih
      · cases resolved
        dsimp only
        rw [Program.wp_bind]
        have linked : created.disk.entry (.top (markerNameOf random)) =
            some marker := by
          rw [disk]
          simp [Disk.create, Disk.attach, Disk.entry]
        have blank : created.disk.files marker =
            ⟨[], .privateFile, some self⟩ := by
          rw [disk]
          exact Function.update_self ..
        refine Program.wp_mono (writePluginMarker_wp linked blank) ?_
        intro ok after written done
        rw [createdPids] at written
        exact ⟨usable, written done⟩

end

/-- The digits in a buffer are a string. -/
theorem cString_digits (name : Name) (rest : Bytes) :
    cString (Hex.encode name ++ 0 :: rest) = Hex.encode name := by
  rw [cString_terminated, cString_eq_self fun byte member =>
    (encode_visible member).1]

/-- The marker that `create_plugin_marker` reports holds the text for its
filename, which the buffer for the digits can take. -/
theorem createPluginMarker_holds
    {allowed : (call : Call) → World → Answer call → Prop}
    {pluginDirectory : Bytes} {volume file : Nat} {filename : Name}
    {buffer : Bytes} (size : buffer.length = 511)
    (short : filename.length ≤ 255) :
    ∃ program, createPluginMarker pluginDirectory filename volume file buffer =
        .ok program ∧
      Program.wp (alone self allowed) program
        (fun result after => result.1 = true →
          opens pluginDirectory result.2 = true ∧
          Holds self (Native.pluginText (before.pidOf self) · volume file
            filename) result.2 after) before := by
  refine ⟨_, by rw [createPluginMarker, hexEncode_eq (by omega)]; rfl, ?_⟩
  rw [cString_digits]
  refine Program.wp_mono markerAttempts_wp ?_
  intro result after holds done
  simpa only [pluginText_eq] using holds done

/-- A plugin marker of this process on Windows, made of the digits `hex_encode`
has left in its buffer; it reads back exactly when the ended process is gone. -/
structure PluginReadsBack (pid : Nat) (created : Int64)
    (record : PluginRecord) (hex : Bytes) : Prop where
  decodes : ∀ beyond output : Bytes, output.length = 256 →
    ∃ decoded, hexDecode (cString hex ++ 0 :: beyond) output =
        .ok (some decoded) ∧ cString decoded = record.filename
  fits : (pluginText pid created record.volume record.file
    (cString hex)).length < 800
  reads : ∀ (ended : Int → Ended) (self : Process) (before : World)
    (pluginDirectory : Bytes) (marker : Name) (ref : FileRef),
    before.Idle self →
    opens pluginDirectory marker = true →
    before.disk.entry (.top marker) = some ref →
    (before.disk.files ref).content =
      pluginText pid created record.volume record.file (cString hex) →
    (before.disk.files ref).mode.regular = true →
    (before.disk.files ref).mode.readable = true →
    before.hasPid pid = false →
      (ReadsBack ended self (parsePluginMarker pluginDirectory marker) before
        record ↔ (ended pid).Gone)

theorem pluginReadsBack {pid : Nat} {created : Int64} {record : PluginRecord}
    (positive : 1 ≤ pid) (narrow : (pid : Int) ≤ intMax) (epoch : 0 ≤ created)
    (narrowVolume : record.volume < 2 ^ 64) (narrowFile : record.file < 2 ^ 64)
    (markable : MarkableName record.filename)
    (text : (Unicode.decode record.filename).isSome = true) {buffer : Bytes}
    (size : buffer.length = 511) :
    ∃ hex, hexEncode record.filename record.filename.length buffer = .ok hex ∧
      PluginReadsBack pid created record hex := by
  have short := markable.short
  have width := Hex.length_encode record.filename
  have narrow' : pid < 2 ^ 32 := by
    unfold intMax at narrow
    omega
  refine ⟨_, hexEncode_eq (by omega), ?_⟩
  have fits := length_pluginText (show pid < 2 ^ 63 by omega) epoch
    narrowVolume narrowFile short
  refine ⟨?_, ?_, ?_⟩
  · intro beyond output room
    rw [cString_digits]
    exact hexDecode_encode markable beyond room
  · rw [cString_digits, pluginText_eq]
    exact fits
  · intro ended self before pluginDirectory marker ref idle usable linked
      content regular permitted dead
    rw [cString_digits, pluginText_eq] at content
    refine readsBack_iff idle linked ?_ ?_ (by omega) dead
    · have filled : 0 < (Native.pluginText pid created record.volume
          record.file record.filename).length := by
        unfold Native.pluginText
        rw [List.length_append, List.length_cons]
        omega
      simp only [plugins, usable, permitted, regular, content,
        Bool.and_eq_true, decide_eq_true_eq]
      exact ⟨⟨⟨⟨trivial, trivial⟩, trivial⟩, filled⟩, fits⟩
    · rw [content]
      exact pluginRecordWith_pluginText (scanPid_reads narrow') epoch
        narrowVolume narrowFile markable.ne_nil short
        (markedFilename_encode markable text)

end Windows

/-- The owner marker of a temporary directory: the text and the name fit their
buffers, and the text reads back. -/
structure OwnerReadsBack (pid : Nat) (created : Int64) (name : Name)
    (text : Bytes) (scan : Bytes → Option (Int × Int × Name)) : Prop where
  fits : text.length < 160
  word : name.length < 64
  reads : scan text = some ((pid : Int), created.toInt, name)

/-- What the code prints into a marker it reads back, on either platform, but on
Windows not while the ended process looks alive. -/
theorem markers_readBack :
    (∀ (bytes : Bytes) (m : Manifest), parseManifest bytes = some m →
      ∀ (pid : Nat) (created : Int64) (volume file : Nat), 1 ≤ pid →
        (pid : Int) ≤ intMax → 0 ≤ created → volume < 2 ^ 64 →
        file < 2 ^ 64 →
          PluginReadsBack pid created ⟨volume, file, m.filename⟩ ∧
          ∀ buffer : Bytes, buffer.length = 511 →
            ∃ hex, Windows.hexEncode m.filename m.filename.length buffer =
                .ok hex ∧
              Windows.PluginReadsBack pid created ⟨volume, file, m.filename⟩
                hex) ∧
      ∀ (runtimeDirectory : Bytes) (name : Name) (pid : Nat)
        (created : Int64), 1 ≤ pid → (pid : Int) ≤ intMax → 0 ≤ created →
          (tempName name = true → OwnerReadsBack pid created name
            (ownerText pid created
              (baseName (slashed runtimeDirectory name))) scanOwner) ∧
          (Windows.tempName name = true → OwnerReadsBack pid created name
            (Windows.ownerText pid created
              (Windows.baseName (slashed runtimeDirectory name)))
            Windows.scanOwner) := by
  constructor
  · intro bytes m parsed pid created volume file positive narrow epoch
      narrowVolume narrowFile
    have markable := markableName_of_parsed parsed
    let record : PluginRecord := ⟨volume, file, m.filename⟩
    refine ⟨@pluginReadsBack pid created record positive narrow epoch
      narrowVolume narrowFile markable, fun buffer size => ?_⟩
    exact @Windows.pluginReadsBack pid created record positive narrow epoch
      narrowVolume narrowFile markable (text_of_parsed parsed) buffer size
  · intro runtimeDirectory name pid created positive narrow epoch
    have small : pid < 2 ^ 32 := by
      unfold intMax at narrow
      omega
    constructor
    · intro temp
      have length := length_tempName temp
      obtain ⟨noSlash, -⟩ := plain_of_temp (tempName_mem temp)
      rw [baseName_slashed noSlash]
      exact ⟨length_ownerText (by omega) epoch (.inl temp), by omega,
        scanOwner_ownerText (by omega) epoch (.inl temp)⟩
    · intro temp
      have length := Windows.length_tempName temp
      have letters := Windows.tempName_mem temp
      obtain ⟨noSlash, noBackslash⟩ := plain_of_temp letters
      have nonempty := (directoryName.plain (.inr temp)).2.1
      rw [Windows.baseName_slashed noSlash noBackslash, Windows.ownerText_eq]
      exact ⟨length_ownerText_lt (by omega) epoch (by omega), by omega,
        scanOwnerWith_ownerText (Windows.scanPid_reads small) epoch
          (fun byte member => visible_of_temp (letters byte member)) nonempty
          (by omega)⟩

/-- The plugin directory with the marker of process 7 in it. -/
def markedWorld : World :=
  World.initial.withDisk
    { World.initial.disk with
      root := AList.singleton (ascii "marker".toList) (.file ⟨0, 1⟩)
      files := fun _ => ⟨Windows.pluginText 7 60 1 2
        (Hex.encode (ascii "a.jar".toList)), .privateFile, some 0⟩ }

/-- The marker of a process that ended with the exit code 259, or that the user
may not ask about, is not read back. -/
theorem markers_unread :
    (parseManifest smallManifest.layout).map (·.filename) =
      some (ascii "a.jar".toList) ∧
    markedWorld.disk.entry (.top (ascii "marker".toList)) = some ⟨0, 1⟩ ∧
    (markedWorld.disk.files ⟨0, 1⟩).content = Windows.pluginText 7 60 1 2
      (Hex.encode (ascii "a.jar".toList)) ∧
    markedWorld.hasPid 7 = false ∧
    ∀ state ∈ [Ended.exited stillActive, .hidden],
      ¬ReadsBack (fun _ => state) 0 (Windows.parsePluginMarker
        (ascii "C:/plugins".toList) (ascii "marker".toList)) markedWorld
        ⟨1, 2, ascii "a.jar".toList⟩ := by
  have linked : markedWorld.disk.entry (.top (ascii "marker".toList)) =
      some ⟨0, 1⟩ := by decide +kernel
  have dead : markedWorld.hasPid 7 = false := rfl
  have idle : markedWorld.Idle 0 := rfl
  refine ⟨by decide +kernel, linked, rfl, dead, fun state looksAlive => ?_⟩
  rw [Windows.readsBack_iff idle linked (by decide +kernel)
    (by decide +kernel) (by decide) dead]
  rw [List.mem_pair] at looksAlive
  rcases looksAlive with rfl | rfl
  · decide
  · decide

theorem markers_readBack_small :
    PluginReadsBack 7 60 ⟨1, 2, ascii "a.jar".toList⟩ ∧
    OwnerReadsBack 7 60 (ascii "rymga-loader-abc123".toList)
      (ownerText 7 60 (baseName
        (ascii "/run/rymga-loader-abc123".toList))) scanOwner := by
  have filename : (parseManifest smallManifest.layout).map (·.filename) =
      some (ascii "a.jar".toList) := by
    decide +kernel
  obtain ⟨m, parsed, named⟩ := Option.map_eq_some_iff.mp filename
  rw [← named]
  exact ⟨(markers_readBack.1 smallManifest.layout m parsed 7 60 1 2
      (by decide) (by decide) (by decide) (by decide) (by decide)).1,
    (markers_readBack.2 (ascii "/run".toList)
      (ascii "rymga-loader-abc123".toList) 7 60 (by decide) (by decide)
      (by decide)).1 (by decide)⟩

end RymgaLoader.Native
