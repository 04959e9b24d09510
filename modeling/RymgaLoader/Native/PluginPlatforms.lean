import RymgaLoader.Native.PluginSweep

/-!
# The two platforms

The parts of the cleanup of `rymga_platform_posix.c` and of
`rymga_platform_windows.c` do what the descriptions of the platforms say.
-/

namespace RymgaLoader.Native

variable {self : Process} {refusable : Name → Prop} {before after : World}

open PluginPlatform

def posixPlugins : PluginPlatform where
  cleaner := posixCleaner
  reader := pluginRecord
  readable _ file := file.mode.readable &&
    (file.mode.regular && file.mode.owned && !file.mode.shared) &&
    file.content ≠ [] && file.content.length ≤ 799
  signals pid := 0 < pid ∧ pid ≤ intMax
  anchor := pluginPartialName
  reaches _ mode := mode.ownRegular

theorem not_jarName_of_marker {name : Name}
    (marker : pluginMarkerName name = true) : jarName name = false := by
  simp only [pluginMarkerName, Bool.decide_and, Bool.and_eq_true,
    decide_eq_true_eq] at marker
  obtain ⟨length, -, ending, -⟩ := marker
  have letter : name.getD (name.length - 2) 0 = 0x65 := by
    have shifted : name.length - 2 =
        name.length - markerEnding.length + 4 := by
      have short : markerEnding.length = 6 := rfl
      omega
    rw [List.getD_eq_getElem?_getD, shifted, ← List.getElem?_drop, ending]
    rfl
  rw [← Bool.not_eq_true]
  intro jar
  simp only [jarName, letter, Bool.decide_and, Bool.and_eq_true] at jar
  exact absurd jar.2.2.2.2.2.1 (by decide)

theorem not_marker_of_template {stem name : Name}
    (template : templateName stem name = true)
    (short : stem.length + 6 ≠ 53) : pluginMarkerName name = false := by
  rw [← Bool.not_eq_true]
  intro marker
  simp only [templateName, Bool.decide_and, Bool.and_eq_true,
    decide_eq_true_eq] at template
  simp only [pluginMarkerName, Bool.decide_and, Bool.and_eq_true,
    decide_eq_true_eq] at marker
  have length : name.length = 53 := marker.1
  omega

/-- What `readMarker` may return. -/
theorem readMarker_reads {allowed : (call : Call) → World → Answer call → Prop}
    {marker : Name} :
    Program.wp (alone self allowed) (readMarker (.top marker) 799)
      (fun found after => after.disk = before.disk ∧
        after.hasPid = before.hasPid ∧ ∀ content, found = some content →
          ∃ ref, before.disk.entry (.top marker) = some ref ∧
            content = (before.disk.files ref).content ∧
            posixPlugins.readable marker (before.disk.files ref) = true)
      before := by
  simp only [readMarker, Program.perform_bind]
  refine wp_resting rfl fun answer opened answered disk pids => ?_
  cases answer with
  | none => exact ⟨disk, pids, by simp⟩
  | some ref =>
      obtain ⟨linked, permitted⟩ := World.exec_openRead answered.1
      refine wp_resting rfl fun answer read answered readDisk readPids => ?_
      replace readDisk := readDisk.trans disk
      replace readPids := readPids.trans pids
      cases answer with
      | none => exact ⟨readDisk, readPids, by simp⟩
      | some content =>
          have taken := World.exec_read answered.1
          rw [disk] at taken
          dsimp only
          split
          · exact ⟨readDisk, readPids, by simp⟩
          · rename_i nonempty
            refine wp_resting rfl fun answer after answered sameDisk pids => ?_
            replace sameDisk := sameDisk.trans readDisk
            replace pids := pids.trans readPids
            cases answer with
            | none => exact ⟨sameDisk, pids, by simp⟩
            | some info =>
                have told := World.exec_fstat answered.1
                rw [readDisk] at told
                subst told
                dsimp only
                split
                · rename_i valid
                  refine ⟨sameDisk, pids, ?_⟩
                  rintro found ⟨⟩
                  simp only [Disk.statFile, Bool.and_eq_true] at valid
                  obtain ⟨mode, same⟩ := valid
                  have size := of_decide_eq_true same
                  rw [taken, List.length_take] at size
                  have whole : content =
                      (before.disk.files ref).content := by
                    rw [taken, List.take_of_length_le (by omega)]
                  refine ⟨ref, linked, whole, ?_⟩
                  simp only [posixPlugins, Bool.and_eq_true,
                    decide_eq_true_eq]
                  exact ⟨⟨⟨permitted, mode⟩, whole ▸ nonempty⟩, by omega⟩
                · exact ⟨sameDisk, pids, by simp⟩

theorem deadProcess_wp {allowed : (call : Call) → World → Answer call → Prop}
    {pid : Int} :
    Program.wp (alone self allowed) (deadProcess pid)
      (fun dead after => after.disk = before.disk ∧
        after.hasPid = before.hasPid ∧ (dead = true →
          posixPlugins.signals pid = true ∧ before.hasPid pid = false))
      before := by
  simp only [deadProcess, Program.perform_bind]
  split
  · exact ⟨rfl, rfl, by simp⟩
  · rename_i range
    refine wp_resting rfl fun answer after answered disk pids => ?_
    cases answer with
    | delivered => exact ⟨disk, pids, by simp⟩
    | notPermitted => exact ⟨disk, pids, by simp⟩
    | noSuchProcess =>
        refine ⟨disk, pids, fun _ => ⟨?_, World.exec_kill answered.1 (by simp)⟩⟩
        simp only [posixPlugins, decide_eq_true_eq]
        omega

theorem parsePluginMarker_wp {marker : Name}
    (named : pluginMarkerName marker = true) :
    Program.wp (alone self (refusing refusable)) (parsePluginMarker marker)
      (fun found after => after.disk = before.disk ∧
        after.hasPid = before.hasPid ∧ ∀ record, found = some record →
          posixPlugins.Expired before marker record) before := by
  simp only [parsePluginMarker]
  rw [Program.wp_bind]
  refine Program.wp_mono readMarker_reads ?_
  rintro found middle ⟨disk, pids, reads⟩
  cases found with
  | none => exact ⟨disk, pids, by simp⟩
  | some content =>
      obtain ⟨ref, linked, rfl, readable⟩ := reads content rfl
      dsimp only
      split
      · exact ⟨disk, pids, by simp⟩
      · rename_i pid created volume file hex scanned
        split
        · exact ⟨disk, pids, by simp⟩
        · rename_i epoch
          rw [Program.wp_bind]
          refine Program.wp_mono deadProcess_wp ?_
          rintro dead after ⟨afterDisk, afterPids, died⟩
          replace afterDisk := afterDisk.trans disk
          replace afterPids := afterPids.trans pids
          cases dead with
          | false => exact ⟨afterDisk, afterPids, by simp⟩
          | true =>
              obtain ⟨signals, gone⟩ := died rfl
              rw [pids] at gone
              refine ⟨afterDisk, afterPids, fun record read => ?_⟩
              obtain ⟨filename, marked, rfl⟩ := Option.map_eq_some_iff.mp read
              refine ⟨named, ref, pid, linked, readable, ?_, signals, gone⟩
              exact pluginRecordWith_eq_some_iff.mpr
                ⟨created, hex, scanned, by omega, marked⟩

/-- A readable marker may be read. -/
theorem readMarker_may {marker : Name} {ref : FileRef}
    (idle : before.Idle self)
    (linked : before.disk.entry (.top marker) = some ref)
    (readable : posixPlugins.readable marker (before.disk.files ref) = true) :
    Program.may (alone self (refusing refusable))
      (readMarker (.top marker) 799)
      (fun found after => Rested self before after ∧
        found = some (before.disk.files ref).content) before := by
  simp only [posixPlugins, Bool.and_eq_true, decide_eq_true_eq] at readable
  obtain ⟨⟨⟨permitted, mode⟩, nonempty⟩, short⟩ := readable
  simp only [readMarker, Program.perform_bind]
  refine may_quiet (some ref) rfl rfl ?_ trivial idle fun opened first => ?_
  · simp only [World.exec, World.effect]
    exact ⟨_, if_pos (Disk.openFile_top linked permitted)⟩
  refine may_quiet (some (before.disk.files ref).content) rfl rfl ?_
    trivial first.idle fun read second => ?_
  · simp only [World.exec, World.effect]
    refine ⟨_, if_pos ?_⟩
    change _ = (opened.disk.files ref).content.take 799
    rw [first.disk, List.take_of_length_le short]
  dsimp only
  rw [if_neg nonempty]
  refine may_quiet (some (before.disk.statFile ref)) rfl rfl ?_
    trivial second.idle fun told third => ?_
  · simp only [World.exec, World.effect]
    refine ⟨_, if_pos ?_⟩
    change _ = read.disk.statFile ref
    rw [second.disk, first.disk]
  dsimp only
  rw [if_pos (by simpa [Disk.statFile, and_assoc] using mode)]
  exact ⟨(first.trans second).trans third, rfl⟩

theorem parsePluginMarker_may {marker : Name}
    {found : Option PluginRecord} (idle : before.Idle self)
    (expired : ∀ record, found = some record →
      posixPlugins.Expired before marker record) :
    Program.may (alone self (refusing refusable)) (parsePluginMarker marker)
      (fun read after => Rested self before after ∧ read = found) before := by
  simp only [parsePluginMarker]
  rw [Program.may_bind]
  cases found with
  | none =>
      simp only [readMarker, Program.perform_bind]
      refine may_quiet none rfl rfl ⟨_, rfl⟩ trivial idle ?_
      exact fun after rested => ⟨rested, rfl⟩
  | some record =>
      obtain ⟨-, ref, pid, linked, readable, read, signals, dead⟩ :=
        expired record rfl
      obtain ⟨created, hex, scanned, epoch, marked⟩ :=
        pluginRecordWith_eq_some_iff.mp read
      simp only [posixPlugins, decide_eq_true_eq] at signals
      refine Program.may_mono (readMarker_may idle linked readable) ?_
      rintro content told ⟨first, rfl⟩
      dsimp only
      rw [scanned]
      dsimp only
      rw [if_neg (by omega), Program.may_bind]
      simp only [deadProcess, Program.perform_bind]
      rw [if_neg (by omega)]
      refine may_kill (first.pids ▸ dead) first.idle fun after second => ?_
      refine ⟨first.trans second, ?_⟩
      rw [marked]
      rfl

theorem posixPlugins_described : Described posixPlugins self refusable where
  separate := by
    intro content pid record name read owned
    obtain ⟨created, hex, -, -, marked⟩ := pluginRecordWith_eq_some_iff.mp read
    simp only [owns, posixPlugins, Bool.or_eq_true, decide_eq_true_eq]
      at owned
    rcases owned with rfl | anchor
    · rw [← Bool.not_eq_true]
      intro marker
      have jar := jarName_of_decodedName marked
      rw [not_jarName_of_marker marker] at jar
      cases jar
    · exact not_marker_of_template anchor (by decide)
  examines_wp := fun marker before => ⟨rfl, rfl, id⟩
  parse_wp := fun marker before named => parsePluginMarker_wp named
  sweep_wp := by
    intro record before free
    change Program.wp _ (posixCleaner.sweep record) _ before
    simp only [posixCleaner, Program.perform_bind]
    refine wp_resting rfl fun answer middle answered disk pids => ?_
    obtain ⟨candidates, rfl, lists⟩ := answered.2
    dsimp only
    rw [Program.wp_bind]
    refine Program.wp_mono removeCandidates_wp ?_
    rintro _ after ⟨removing, cleared⟩
    have removed : Removing (fun name => posixPlugins.owns record name = true)
        before after := (Removing.of_disk disk pids).trans removing
    refine ⟨removed, fun _ name owned identified => ?_⟩
    obtain ⟨certain, reached⟩ := identified_reached
      (fun obstructed => free name owned (obstructed.of_removing removed))
      identified
    have listed : name ∈ candidates := by
      obtain ⟨ref, linked, -⟩ := removed.identified identified
      exact lists.complete name (mem_names_of_entry linked)
    exact cleared name listed owned certain reached
  examines_may := fun marker before idle => ⟨Rested.refl idle,
    fun record expired => expired.1⟩
  parse_may := fun marker before found idle expired =>
    parsePluginMarker_may idle expired
  sweep_may := by
    intro record name before idle owned obstructed
    change Program.may _ (posixCleaner.sweep record) _ before
    simp only [posixCleaner, Program.perform_bind]
    refine may_scan (lists_names before.disk) fun middle rested => ?_
    dsimp only
    rw [Program.may_bind]
    obtain ⟨ref, linked, -, -, stays⟩ := obstructed
    refine Program.may_mono (removeCandidates_may name rested.idle ?_) ?_
    · intro _
      rw [rested.disk]
      refine stays.imp id fun unseen other found => ?_
      rw [linked] at found
      cases found
      exact unseen
    · rintro _ after ⟨later, removing⟩
      exact ⟨rfl, later, rested.removing.trans removing⟩

namespace Windows

def plugins (pluginDirectory : Bytes) : PluginPlatform where
  cleaner := cleaner pluginDirectory
  reader := pluginRecord
  readable marker file := opens pluginDirectory marker &&
    file.mode.readable && file.mode.regular && 0 < file.content.length &&
    file.content.length < 800
  signals pid := pid ≠ 0
  anchor := pluginPartialName
  reaches name mode := opens pluginDirectory name && mode.regular

variable {pluginDirectory : Bytes}

theorem readMarker_wp {allowed : (call : Call) → World → Answer call → Prop}
    {marker : Name} :
    Program.wp (alone self allowed) (readMarker (.top marker) 800)
      (fun found after => after.disk = before.disk ∧
        after.hasPid = before.hasPid ∧ ∀ content, found = some content →
          ∃ ref, before.disk.entry (.top marker) = some ref ∧
            content = (before.disk.files ref).content ∧
            (before.disk.files ref).mode.readable = true ∧
            (before.disk.files ref).mode.regular = true ∧
            0 < content.length ∧ content.length < 800) before := by
  simp only [readMarker, Program.perform_bind]
  refine wp_resting rfl fun answer opened answered disk pids => ?_
  cases answer with
  | none => exact ⟨disk, pids, by simp⟩
  | some ref =>
      obtain ⟨linked, permitted⟩ := World.exec_openRead answered.1
      refine wp_resting rfl fun answer told answered toldDisk toldPids => ?_
      replace toldDisk := toldDisk.trans disk
      replace toldPids := toldPids.trans pids
      cases answer with
      | none => exact ⟨toldDisk, toldPids, by simp⟩
      | some info =>
          have same := World.exec_fstat answered.1
          rw [disk] at same
          subst same
          dsimp only
          split
          · exact ⟨toldDisk, toldPids, by simp⟩
          · rename_i valid
            simp only [Disk.statFile, Bool.not_eq_true', Bool.not_eq_false,
              Bool.and_eq_true] at valid
            obtain ⟨⟨regular, some⟩, few⟩ := valid
            refine wp_resting rfl fun answer after answered sameDisk pids => ?_
            replace sameDisk := sameDisk.trans toldDisk
            replace pids := pids.trans toldPids
            cases answer with
            | none => exact ⟨sameDisk, pids, by simp⟩
            | some content =>
                have taken := World.exec_read answered.1
                rw [toldDisk, Disk.statFile, List.take_length] at taken
                subst taken
                dsimp only
                split
                · refine ⟨sameDisk, pids, ?_⟩
                  rintro content ⟨⟩
                  exact ⟨ref, linked, rfl, permitted, regular,
                    of_decide_eq_true some, of_decide_eq_true few⟩
                · exact ⟨sameDisk, pids, by simp⟩

theorem processIsAlive_wp
    {allowed : (call : Call) → World → Answer call → Prop} {pid : Int} :
    Program.wp (alone self allowed) (processIsAlive pid)
      (fun alive after => after.disk = before.disk ∧
        after.hasPid = before.hasPid ∧
        (alive = false → before.hasPid pid = false)) before := by
  simp only [processIsAlive, Program.perform_bind]
  refine wp_resting rfl fun answer opened answered disk pids => ?_
  cases answer with
  | failed => exact ⟨disk, pids, fun _ => World.exec_openProcess answered.1⟩
  | accessDenied => exact ⟨disk, pids, by simp⟩
  | opened =>
      refine wp_resting rfl fun answer after answered sameDisk same => ?_
      replace sameDisk := sameDisk.trans disk
      replace same := same.trans pids
      cases answer with
      | none => exact ⟨sameDisk, same, by simp⟩
      | some code =>
          refine ⟨sameDisk, same, fun ended => ?_⟩
          rw [← pids]
          exact World.exec_exitCode answered.1 (of_decide_eq_false ended)

theorem parsePluginMarker_wp {marker : Name}
    (named : pluginMarkerName marker = true) :
    Program.wp (alone self (refusing refusable))
      (parsePluginMarker pluginDirectory marker)
      (fun found after => after.disk = before.disk ∧
        after.hasPid = before.hasPid ∧ ∀ record, found = some record →
          (plugins pluginDirectory).Expired before marker record) before := by
  simp only [parsePluginMarker]
  split
  · exact ⟨rfl, rfl, by simp⟩
  rename_i usable
  rw [Program.wp_bind]
  refine Program.wp_mono readMarker_wp ?_
  rintro found middle ⟨disk, pids, reads⟩
  cases found with
  | none => exact ⟨disk, pids, by simp⟩
  | some content =>
      obtain ⟨ref, linked, rfl, permitted, regular, filled, short⟩ :=
        reads content rfl
      dsimp only
      split
      · exact ⟨disk, pids, by simp⟩
      · rename_i pid created volume file hex scanned
        split
        · exact ⟨disk, pids, by simp⟩
        · rename_i valid
          rw [Program.wp_bind]
          refine Program.wp_mono processIsAlive_wp ?_
          rintro alive after ⟨afterDisk, afterPids, ended⟩
          replace afterDisk := afterDisk.trans disk
          replace afterPids := afterPids.trans pids
          cases alive with
          | true => exact ⟨afterDisk, afterPids, by simp⟩
          | false =>
              have gone := ended rfl
              rw [pids] at gone
              refine ⟨afterDisk, afterPids, fun record read => ?_⟩
              obtain ⟨filename, marked, rfl⟩ := Option.map_eq_some_iff.mp read
              refine ⟨named, ref, pid, linked, ?_, ?_, ?_, gone⟩
              · simpa [plugins, permitted, regular, filled, short]
                  using usable
              · exact pluginRecordWith_eq_some_iff.mpr
                  ⟨created, hex, scanned, by omega, marked⟩
              · simp only [plugins, decide_eq_true_eq]
                omega

theorem readMarker_may {marker : Name} {ref : FileRef}
    (idle : before.Idle self)
    (linked : before.disk.entry (.top marker) = some ref)
    (readable : (plugins pluginDirectory).readable marker
      (before.disk.files ref) = true) :
    Program.may (alone self (refusing refusable))
      (readMarker (.top marker) 800)
      (fun found after => Rested self before after ∧
        found = some (before.disk.files ref).content) before := by
  simp only [plugins, Bool.and_eq_true, decide_eq_true_eq] at readable
  obtain ⟨⟨⟨⟨-, permitted⟩, regular⟩, filled⟩, short⟩ := readable
  simp only [readMarker, Program.perform_bind]
  refine may_quiet (some ref) rfl rfl ?_ trivial idle fun opened first => ?_
  · simp only [World.exec, World.effect]
    exact ⟨_, if_pos (Disk.openFile_top linked permitted)⟩
  refine may_quiet (some (before.disk.statFile ref)) rfl rfl ?_
    trivial first.idle fun told second => ?_
  · simp only [World.exec, World.effect]
    refine ⟨_, if_pos ?_⟩
    change _ = opened.disk.statFile ref
    rw [first.disk]
  dsimp only
  rw [if_neg (by simp [Disk.statFile, regular, short, filled])]
  refine may_quiet (some (before.disk.files ref).content) rfl rfl ?_
    trivial second.idle fun read third => ?_
  · simp only [World.exec, World.effect]
    refine ⟨_, if_pos ?_⟩
    change _ = (told.disk.files ref).content.take _
    rw [second.disk, first.disk, Disk.statFile, List.take_length]
  have whole : (before.disk.files ref).content.length =
      (before.disk.statFile ref).size := rfl
  dsimp only
  rw [if_pos whole]
  exact ⟨(first.trans second).trans third, rfl⟩

theorem parsePluginMarker_may {marker : Name}
    {found : Option PluginRecord} (idle : before.Idle self)
    (expired : ∀ record, found = some record →
      (plugins pluginDirectory).Expired before marker record) :
    Program.may (alone self (refusing refusable))
      (parsePluginMarker pluginDirectory marker)
      (fun read after => Rested self before after ∧ read = found) before := by
  simp only [parsePluginMarker]
  cases found with
  | none =>
      split
      · exact ⟨Rested.refl idle, rfl⟩
      · rw [Program.may_bind]
        simp only [readMarker, Program.perform_bind]
        refine may_quiet none rfl rfl ⟨_, rfl⟩ trivial idle ?_
        exact fun after rested => ⟨rested, rfl⟩
  | some record =>
      obtain ⟨-, ref, pid, linked, readable, read, signals, dead⟩ :=
        expired record rfl
      obtain ⟨created, hex, scanned, epoch, marked⟩ :=
        pluginRecordWith_eq_some_iff.mp read
      simp only [plugins, decide_eq_true_eq] at signals
      have usable : opens pluginDirectory marker = true := by
        simp only [plugins, Bool.and_eq_true] at readable
        exact readable.1.1.1.1
      rw [if_neg (by simp [usable]), Program.may_bind]
      refine Program.may_mono (readMarker_may idle linked readable) ?_
      rintro content told ⟨first, rfl⟩
      dsimp only
      rw [scanned]
      dsimp only
      rw [if_neg (by omega)]
      simp only [processIsAlive, Program.perform_bind]
      refine may_openProcess (first.pids ▸ dead) first.idle
        fun after second => ?_
      refine ⟨first.trans second, ?_⟩
      rw [marked]
      rfl

theorem not_marker_of_partial {name : Name}
    (anchor : pluginPartialName name = true) :
    pluginMarkerName name = false := by
  rw [← Bool.not_eq_true]
  intro marker
  simp only [pluginPartialName, Bool.decide_and, Bool.and_eq_true,
    decide_eq_true_eq] at anchor
  simp only [pluginMarkerName, Bool.decide_and, Bool.and_eq_true,
    decide_eq_true_eq] at marker
  have short : name.length = 51 := anchor.1
  have long : name.length = 53 := marker.1
  omega

theorem sweep_wp {record : PluginRecord}
    (free : ∀ name, (plugins pluginDirectory).owns record name = true →
      ¬(plugins pluginDirectory).Obstructed refusable before.disk record
        name) :
    Program.wp (alone self (refusing refusable))
      ((cleaner pluginDirectory).sweep record)
      (fun swept after => Removing (fun name =>
          (plugins pluginDirectory).owns record name = true) before after ∧
        (swept = true → ∀ name,
          (plugins pluginDirectory).owns record name = true →
            ¬after.disk.Identified Mode.regular name record.identity))
      before := by
  have first : Program.wp (alone self (refusing refusable))
      (removeDestination pluginDirectory record)
      (fun _ middle => Removing (· = record.filename) before middle ∧
        (opens pluginDirectory record.filename = true →
          ¬refusable record.filename → ¬middle.disk.Identified Mode.regular
            record.filename record.identity)) before := by
    simp only [removeDestination]
    split
    · refine Program.wp_mono removeSame_wp ?_
      exact fun _ middle ⟨removing, cleared⟩ => ⟨removing, fun _ => cleared⟩
    · rename_i unusable
      exact ⟨Removing.of_disk rfl rfl, fun usable => absurd usable unusable⟩
  simp only [cleaner, Program.perform_bind]
  rw [Program.wp_bind]
  refine Program.wp_mono first ?_
  rintro _ middle ⟨destination, cleared⟩
  refine wp_resting rfl fun answer scanned answered disk pids => ?_
  obtain ⟨candidates, rfl, lists⟩ := answered.2
  dsimp only
  rw [Program.wp_bind]
  refine Program.wp_mono removeCandidates_wp ?_
  rintro _ after ⟨anchors, gone⟩
  have rest : Removing (fun name =>
      (plugins pluginDirectory).owns record name = true) middle after := by
    refine (Removing.of_disk disk pids).trans (anchors.mono ?_)
    intro name wanted
    rw [Bool.and_eq_true] at wanted
    simp [owns, plugins, wanted.1]
  have removed : Removing (fun name =>
      (plugins pluginDirectory).owns record name = true) before after := by
    refine (destination.mono ?_).trans rest
    rintro name rfl
    simp [owns]
  refine ⟨removed, fun _ name owned identified => ?_⟩
  obtain ⟨certain, ref, linked, reached, same⟩ := identified_reached
    (fun obstructed => free name owned (obstructed.of_removing removed))
    identified
  simp only [plugins, Bool.and_eq_true] at reached
  simp only [owns, plugins, Bool.or_eq_true, decide_eq_true_eq] at owned
  rcases owned with rfl | anchor
  · exact cleared reached.1 certain (rest.identified identified)
  · have listed : name ∈ candidates := by
      obtain ⟨ref, found, -⟩ := rest.identified identified
      exact lists.complete name (mem_names_of_entry found)
    refine gone name listed ?_ certain identified
    rw [anchor, reached.1]
    rfl

theorem sweep_may {record : PluginRecord} {name : Name}
    (idle : before.Idle self)
    (obstructed : (plugins pluginDirectory).Obstructed refusable before.disk
      record name) :
    Program.may (alone self (refusing refusable))
      ((cleaner pluginDirectory).sweep record)
      (fun swept after => swept = true ∧ after.Idle self ∧
        Removing (fun candidate => candidate ≠ name ∧
          (plugins pluginDirectory).owns record candidate = true) before
          after) before := by
  obtain ⟨ref, linked, regular, -, stays⟩ := obstructed
  simp only [plugins, regular, Bool.and_true] at stays
  have first : Program.may (alone self (refusing refusable))
      (removeDestination pluginDirectory record)
      (fun _ middle => middle.Idle self ∧
        Removing (fun candidate => candidate ≠ name ∧
          (plugins pluginDirectory).owns record candidate = true) before
          middle) before := by
    simp only [removeDestination]
    split
    · rename_i usable
      by_cases same : record.filename = name
      · subst same
        refine Program.may_mono (removeSame_may_stay idle
          (stays.imp id fun unusable => ?_)) ?_
        · rw [usable] at unusable
          cases unusable
        · exact fun _ middle rested => ⟨rested.idle, rested.removing⟩
      · refine Program.may_mono (removeSame_may idle) ?_
        rintro _ middle ⟨removing, later⟩
        refine ⟨later, removing.mono ?_⟩
        rintro candidate rfl
        exact ⟨same, by simp [owns]⟩
    · exact ⟨idle, Removing.of_disk rfl rfl⟩
  simp only [cleaner, Program.perform_bind]
  rw [Program.may_bind]
  refine Program.may_mono first ?_
  rintro _ middle ⟨middleIdle, destination⟩
  refine may_scan (lists_names middle.disk) fun scanned rested => ?_
  dsimp only
  rw [Program.may_bind]
  refine Program.may_mono (removeCandidates_may name rested.idle ?_) ?_
  · intro wanted
    rw [Bool.and_eq_true] at wanted
    refine stays.imp id fun unusable => ?_
    rw [wanted.2] at unusable
    cases unusable
  · rintro _ after ⟨later, anchors⟩
    refine ⟨rfl, later, destination.trans (rested.removing.trans
      (anchors.mono ?_))⟩
    rintro candidate ⟨other, wanted⟩
    rw [Bool.and_eq_true] at wanted
    exact ⟨other, by simp [owns, plugins, wanted.1]⟩

theorem plugins_described :
    Described (plugins pluginDirectory) self refusable where
  separate := by
    intro content pid record name read owned
    obtain ⟨created, hex, -, -, marked⟩ :=
      pluginRecordWith_eq_some_iff.mp read
    simp only [owns, plugins, Bool.or_eq_true, decide_eq_true_eq] at owned
    rcases owned with rfl | anchor
    · rw [← Bool.not_eq_true]
      intro marker
      have jar := jarName_of_decodedName marked
      rw [not_jarName_of_marker marker] at jar
      cases jar
    · exact not_marker_of_partial anchor
  examines_wp := by
    intro marker before
    change Program.wp _ ((cleaner pluginDirectory).examines marker) _ before
    simp only [cleaner, Program.perform_bind]
    split
    · exact ⟨rfl, rfl, by simp⟩
    · rename_i named
      refine wp_resting rfl fun answer after answered disk pids => ?_
      cases answer with
      | none => exact ⟨disk, pids, by simp⟩
      | some info => exact ⟨disk, pids, fun _ => by simpa using named⟩
  parse_wp := fun marker before named => parsePluginMarker_wp named
  sweep_wp := fun record before free => sweep_wp free
  examines_may := by
    intro marker before idle
    change Program.may _ ((cleaner pluginDirectory).examines marker) _ before
    simp only [cleaner, Program.perform_bind]
    split
    · rename_i unnamed
      refine ⟨Rested.refl idle, fun record expired => ?_⟩
      rw [expired.1] at unnamed
      cases unnamed
    · refine may_quiet (before.disk.stat (.top marker)) rfl rfl ?_ rfl idle ?_
      · cases stat : before.disk.stat (.top marker) with
        | none => exact ⟨_, rfl⟩
        | some info =>
            simp only [World.exec, World.effect]
            exact ⟨_, if_pos stat⟩
      · intro after rested
        have seen : ∀ record,
            (plugins pluginDirectory).Expired before marker record →
              ∃ info, before.disk.stat (.top marker) = some info ∧
                info.mode.regular = true := by
          rintro record ⟨-, ref, pid, linked, readable, -⟩
          simp only [plugins, Bool.and_eq_true] at readable
          refine ⟨before.disk.statFile ref, ?_, readable.1.1.2⟩
          simp [Disk.stat, Disk.lookup, Disk.resolve, linked]
        cases stat : before.disk.stat (.top marker) with
        | none =>
            refine ⟨rested, fun record expired => ?_⟩
            obtain ⟨info, told, -⟩ := seen record expired
            rw [stat] at told
            cases told
        | some info =>
            refine ⟨rested, fun record expired => ?_⟩
            obtain ⟨told, shown, regular⟩ := seen record expired
            rw [stat] at shown
            cases shown
            exact regular
  parse_may := fun marker before found idle expired =>
    parsePluginMarker_may idle expired
  sweep_may := fun record name before idle _ obstructed =>
    sweep_may idle obstructed

end Windows

end RymgaLoader.Native
