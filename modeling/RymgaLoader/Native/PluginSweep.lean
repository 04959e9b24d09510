import RymgaLoader.Native.PluginCalls

/-!
# Sweeping up after plugin markers

The loop of `rymga_platform_cleanup_plugins` for a platform whose parts do
what a short description of it says: every marker outlives the files it
vouches for unless one of these may be refused or is overlooked.
-/

namespace RymgaLoader.Native

variable {refusable : Name → Prop} {before after : World} {actor : Process}

/-- What a platform's cleanup goes by: how it reads a marker and which of them
it accepts, which names it expects an anchor under, and which files it looks
at. -/
structure PluginPlatform where
  cleaner : PluginCleaner
  reader : Bytes → Option (Int × PluginRecord)
  readable : Name → File → Bool
  signals : Int → Bool
  anchor : Name → Bool
  reaches : Name → Mode → Bool

namespace PluginPlatform

variable (platform : PluginPlatform)

/-- The destination or the anchor of a plugin. -/
def owns (record : PluginRecord) (name : Name) : Bool :=
  name = record.filename || platform.anchor name

/-- The marker `marker` records `record`. -/
def Records (disk : Disk) (marker : Name) (record : PluginRecord) : Prop :=
  pluginMarkerName marker = true ∧ ∃ ref pid,
    disk.entry (.top marker) = some ref ∧
    platform.reader (disk.files ref).content = some (pid, record)

/-- A cleanup takes the process of this marker to be dead. -/
def Expired (world : World) (marker : Name) (record : PluginRecord) : Prop :=
  pluginMarkerName marker = true ∧ ∃ ref pid,
    world.disk.entry (.top marker) = some ref ∧
    platform.readable marker (world.disk.files ref) = true ∧
    platform.reader (world.disk.files ref).content = some (pid, record) ∧
    platform.signals pid = true ∧ world.hasPid pid = false

/-- The recorded file is linked under `name` and may be there to stay. -/
def Obstructed (refusable : Name → Prop) (disk : Disk)
    (record : PluginRecord) (name : Name) : Prop :=
  ∃ ref, disk.entry (.top name) = some ref ∧
    (disk.files ref).mode.regular = true ∧
    (disk.volume, ref.inode) = record.identity ∧
    (refusable name ∨ platform.reaches name (disk.files ref).mode = false)

/-- Every marker is still there unless nothing it owns remains. -/
def Kept (before after : Disk) : Prop :=
  ∀ marker record name, platform.Records before marker record →
    platform.owns record name = true →
    after.Identified Mode.regular name record.identity →
      after.entry (.top marker) = before.entry (.top marker)

/-- Nothing an expired marker owns may be there to stay. -/
def Clear (refusable : Name → Prop) (world : World) : Prop :=
  ∀ marker record name, platform.Expired world marker record →
    platform.owns record name = true →
      ¬platform.Obstructed refusable world.disk record name

variable {platform}

theorem Expired.records {world : World} {marker : Name}
    {record : PluginRecord} (expired : platform.Expired world marker record) :
    platform.Records world.disk marker record := by
  obtain ⟨named, ref, pid, found, -, read, -⟩ := expired
  exact ⟨named, ref, pid, found, read⟩

theorem Records.unique {disk : Disk} {marker : Name}
    {first second : PluginRecord}
    (one : platform.Records disk marker first)
    (two : platform.Records disk marker second) : first = second := by
  obtain ⟨-, ref, pid, found, read⟩ := one
  obtain ⟨-, other, otherPid, again, readAgain⟩ := two
  rw [found] at again
  cases again
  rw [read] at readAgain
  cases readAgain
  rfl

theorem Expired.of_removing {gone : Name → Prop} {marker : Name}
    {record : PluginRecord} (removing : Removing gone before after)
    (expired : platform.Expired after marker record) :
    platform.Expired before marker record := by
  obtain ⟨named, ref, pid, found, readable, read, signals, dead⟩ := expired
  rw [removing.files] at readable read
  rw [removing.pids] at dead
  exact ⟨named, ref, pid, removing.entry_of_some found, readable, read,
    signals, dead⟩

theorem Obstructed.of_removing {gone : Name → Prop} {record : PluginRecord}
    {name : Name} (removing : Removing gone before after)
    (obstructed : platform.Obstructed refusable after.disk record name) :
    platform.Obstructed refusable before.disk record name := by
  obtain ⟨ref, found, regular, same, stays⟩ := obstructed
  rw [removing.files] at regular stays
  rw [removing.volume] at same
  exact ⟨ref, removing.entry_of_some found, regular, same, stays⟩

theorem Clear.of_removing {gone : Name → Prop}
    (clear : platform.Clear refusable before)
    (removing : Removing gone before after) :
    platform.Clear refusable after := fun marker record name expired owned
      obstructed => clear marker record name (expired.of_removing removing)
        owned (obstructed.of_removing removing)

/-- Without an obstruction the platform looks at the file. -/
theorem identified_reached {record : PluginRecord} {name : Name}
    {disk : Disk}
    (clear : ¬platform.Obstructed refusable disk record name)
    (identified : disk.Identified Mode.regular name record.identity) :
    ¬refusable name ∧
      disk.Identified (platform.reaches name) name record.identity := by
  obtain ⟨ref, found, regular, same⟩ := identified
  have reached : ¬(refusable name ∨
      platform.reaches name (disk.files ref).mode = false) :=
    fun stays => clear ⟨ref, found, regular, same, stays⟩
  rw [not_or, Bool.not_eq_false] at reached
  exact ⟨reached.1, ref, found, reached.2, same⟩
/-- The parts of a platform's cleanup do what its description says, and
nothing it describes is ruled out. -/
structure Described (platform : PluginPlatform) (actor : Process)
    (refusable : Name → Prop) : Prop where
  separate : ∀ content pid record name,
    platform.reader content = some (pid, record) →
    platform.owns record name = true → pluginMarkerName name = false
  examines_wp : ∀ marker before, Program.wp (alone actor (refusing refusable))
    (platform.cleaner.examines marker)
    (fun examined after => after.disk = before.disk ∧
      after.hasPid = before.hasPid ∧
      (examined = true → pluginMarkerName marker = true)) before
  parse_wp : ∀ marker before, pluginMarkerName marker = true →
    Program.wp (alone actor (refusing refusable))
      (platform.cleaner.parse marker)
      (fun found after => after.disk = before.disk ∧
        after.hasPid = before.hasPid ∧ ∀ record, found = some record →
          platform.Expired before marker record) before
  sweep_wp : ∀ record before, (∀ name, platform.owns record name = true →
      ¬platform.Obstructed refusable before.disk record name) →
    Program.wp (alone actor (refusing refusable))
      (platform.cleaner.sweep record)
      (fun swept after =>
        Removing (fun name => platform.owns record name = true) before after ∧
        (swept = true → ∀ name, platform.owns record name = true →
          ¬after.disk.Identified Mode.regular name record.identity)) before
  examines_may : ∀ marker before, before.Idle actor →
    Program.may (alone actor (refusing refusable))
      (platform.cleaner.examines marker)
      (fun examined after => Rested actor before after ∧
        ∀ record, platform.Expired before marker record → examined = true)
      before
  parse_may : ∀ marker before found, before.Idle actor →
    (∀ record, found = some record → platform.Expired before marker record) →
    Program.may (alone actor (refusing refusable))
      (platform.cleaner.parse marker)
      (fun read after => Rested actor before after ∧ read = found) before
  sweep_may : ∀ record name before, before.Idle actor →
    platform.owns record name = true →
    platform.Obstructed refusable before.disk record name →
    Program.may (alone actor (refusing refusable))
      (platform.cleaner.sweep record)
      (fun swept after => swept = true ∧ after.Idle actor ∧
        Removing (fun candidate => candidate ≠ name ∧
          platform.owns record candidate = true) before after) before

/-- What the cleanup of some markers leaves. -/
structure Progress (platform : PluginPlatform) (before after : World) :
    Prop where
  removing : Removing (fun _ => True) before after
  kept : platform.Kept before.disk after.disk

theorem Progress.rest (disk : after.disk = before.disk)
    (pids : after.hasPid = before.hasPid) : Progress platform before after :=
  ⟨Removing.of_disk disk pids, fun _ _ _ _ _ _ => by rw [disk]⟩

theorem Progress.trans {middle : World}
    (first : Progress platform before middle)
    (second : Progress platform middle after) :
    Progress platform before after := by
  refine ⟨first.removing.trans second.removing, ?_⟩
  intro marker record name recorded owned identified
  have same := first.kept marker record name recorded owned
    (second.removing.identified identified)
  have still : platform.Records middle.disk marker record := by
    obtain ⟨named, ref, pid, found, read⟩ := recorded
    rw [← first.removing.files] at read
    exact ⟨named, ref, pid, same.trans found, read⟩
  rw [second.kept marker record name still owned identified, same]

theorem settle_wp (described : Described platform actor refusable)
    {marker : Name} (named : pluginMarkerName marker = true)
    (clear : platform.Clear refusable before) :
    Program.wp (alone actor (refusing refusable))
      (platform.cleaner.settle marker)
      (fun _ after => Progress platform before after) before := by
  simp only [PluginCleaner.settle]
  rw [Program.wp_bind]
  refine Program.wp_mono (described.parse_wp marker before named) ?_
  rintro found middle ⟨disk, pids, expired⟩
  have rested : Removing (fun _ => True) before middle :=
    Removing.of_disk disk pids
  cases found with
  | none => exact Progress.rest disk pids
  | some record =>
      have dead := expired record rfl
      have recorded := dead.records
      have free : ∀ name, platform.owns record name = true →
          ¬platform.Obstructed refusable middle.disk record name :=
        fun name owned obstructed => clear marker record name dead owned
          (obstructed.of_removing rested)
      dsimp only
      rw [Program.wp_bind]
      refine Program.wp_mono (described.sweep_wp record middle free) ?_
      rintro swept swept' ⟨removing, gone⟩
      have removed : Removing (fun _ => True) before swept' :=
        rested.trans (removing.mono fun _ _ => trivial)
      have others : ∀ other otherRecord,
          platform.Records before.disk other otherRecord →
          swept'.disk.entry (.top other) = before.disk.entry (.top other) := by
        intro other otherRecord otherRecorded
        rw [removing.entry_eq, disk]
        intro owned
        obtain ⟨-, ref, pid, -, read⟩ := recorded
        have unmarked := described.separate _ pid record other read owned
        rw [otherRecorded.1] at unmarked
        cases unmarked
      cases swept with
      | false =>
          exact ⟨removed, fun other otherRecord name otherRecorded _ _ =>
            others other otherRecord otherRecorded⟩
      | true =>
          intro answer after answered
          have dropping := removing_of_unlink answered
          refine ⟨removed.trans (dropping.mono fun _ _ => trivial), ?_⟩
          intro other otherRecord name otherRecorded owned identified
          by_cases same : other = marker
          · subst same
            cases otherRecorded.unique recorded
            exact absurd (dropping.identified identified)
              (gone rfl name owned)
          · rw [dropping.entry_eq same]
            exact others other otherRecord otherRecorded

theorem markers_wp (described : Described platform actor refusable)
    {checked : Nat} {entries : List Name}
    (clear : platform.Clear refusable before) :
    Program.wp (alone actor (refusing refusable))
      (platform.cleaner.markers checked entries)
      (fun _ after => Progress platform before after) before := by
  induction entries generalizing checked before with
  | nil => exact Progress.rest rfl rfl
  | cons entry entries ih =>
      simp only [PluginCleaner.markers]
      by_cases more : checked < 256
      · rw [if_pos more, Program.wp_bind]
        refine Program.wp_mono (described.examines_wp entry before) ?_
        rintro examined middle ⟨disk, pids, named⟩
        have rested : Progress platform before middle :=
          Progress.rest disk pids
        have stillClear := clear.of_removing rested.removing
        cases examined with
        | false =>
            refine Program.wp_mono (ih stillClear) ?_
            exact fun _ after progress => rested.trans progress
        | true =>
            simp only [if_true]
            rw [Program.wp_bind]
            refine Program.wp_mono
              (settle_wp described (named rfl) stillClear) ?_
            intro _ settled progress
            refine Program.wp_mono
              (ih (stillClear.of_removing progress.removing)) ?_
            exact fun _ after rest => (rested.trans progress).trans rest
      · rw [if_neg more]
        exact Progress.rest rfl rfl

/-- A cleanup may find every marker unreadable. -/
theorem markers_may_rest (described : Described platform actor refusable)
    {checked : Nat} {entries : List Name} (idle : before.Idle actor) :
    Program.may (alone actor (refusing refusable))
      (platform.cleaner.markers checked entries)
      (fun _ after => Rested actor before after) before := by
  induction entries generalizing checked before with
  | nil => exact Rested.refl idle
  | cons entry entries ih =>
      simp only [PluginCleaner.markers]
      by_cases more : checked < 256
      · rw [if_pos more, Program.may_bind]
        refine Program.may_mono (described.examines_may entry before idle) ?_
        rintro examined middle ⟨rested, -⟩
        cases examined with
        | false =>
            refine Program.may_mono (ih rested.idle) ?_
            exact fun _ after rest => rested.trans rest
        | true =>
            simp only [if_true, PluginCleaner.settle]
            rw [Program.may_bind, Program.may_bind]
            refine Program.may_mono (described.parse_may entry middle none
              rested.idle (by simp)) ?_
            rintro read parsed ⟨unread, rfl⟩
            change Program.may _
              (platform.cleaner.markers (checked + 1) entries) _ parsed
            refine Program.may_mono (ih unread.idle) ?_
            exact fun _ after rest => (rested.trans unread).trans rest
      · rw [if_neg more]
        exact Rested.refl idle

theorem markers_may_lose (described : Described platform actor refusable)
    {marker : Name} {record : PluginRecord} {name : Name}
    {entries : List Name} (idle : before.Idle actor)
    (expired : platform.Expired before marker record)
    (owned : platform.owns record name = true)
    (obstructed : platform.Obstructed refusable before.disk record name) :
    Program.may (alone actor (refusing refusable))
      (platform.cleaner.markers 0 (marker :: entries))
      (fun _ after => after.disk.entry (.top marker) = none ∧
        after.disk.Identified Mode.regular name record.identity) before := by
  have separate : ∀ candidate, platform.owns record candidate = true →
      candidate ≠ marker := by
    rintro candidate candidateOwned rfl
    obtain ⟨named, ref, pid, -, -, read, -⟩ := expired
    rw [described.separate _ pid record candidate read candidateOwned]
      at named
    cases named
  have identified : before.disk.Identified Mode.regular name
      record.identity := by
    obtain ⟨ref, found, regular, same, -⟩ := obstructed
    exact ⟨ref, found, regular, same⟩
  simp only [PluginCleaner.markers]
  rw [if_pos (by decide), Program.may_bind]
  refine Program.may_mono (described.examines_may marker before idle) ?_
  rintro examined seen ⟨first, always⟩
  cases always record expired
  simp only [if_true, PluginCleaner.settle]
  rw [Program.may_bind, Program.may_bind]
  have stillExpired : platform.Expired seen marker record := by
    rw [Expired, first.disk, first.pids]
    exact expired
  refine Program.may_mono (described.parse_may marker seen (some record)
    first.idle ?_) ?_
  · rintro found ⟨⟩
    exact stillExpired
  rintro read parsed ⟨second, rfl⟩
  dsimp only
  have same : parsed.disk = before.disk := second.disk.trans first.disk
  rw [Program.may_bind]
  refine Program.may_mono (described.sweep_may record name parsed second.idle
    owned (same ▸ obstructed)) ?_
  rintro swept swept' ⟨rfl, sweptIdle, removing⟩
  obtain ⟨-, ref, -, found, -⟩ := stillExpired.records
  have linked : swept'.disk.entry (.top marker) = some ref := by
    rw [removing.entry_eq fun gone => separate marker gone.2 rfl, second.disk]
    exact found
  simp only [if_true, Program.perform_bind]
  refine may_unlink sweptIdle linked fun dropped dropping absent idle => ?_
  change Program.may _ (platform.cleaner.markers 1 entries) _ dropped
  refine Program.may_mono (markers_may_rest described idle) ?_
  intro _ after rest
  rw [rest.disk]
  refine ⟨absent, dropping.keeps_identified (separate name owned) ?_⟩
  refine removing.keeps_identified (fun gone => gone.1 rfl) ?_
  rw [same]
  exact identified

end PluginPlatform

end RymgaLoader.Native
