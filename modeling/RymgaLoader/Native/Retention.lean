import RymgaLoader.Native.PluginPlatforms

/-!
# Keeping plugin markers

`rymga_platform_cleanup_plugins` and `rymga_platform_release_plugin` ignore
the outcome of their deletions.  A marker is dropped while a file it vouches
for is still there exactly when the deletion of such a file may be refused, or
the platform does not look at it at all.
-/

namespace RymgaLoader.Native

open PluginPlatform

variable {self : Process} {refusable : Name → Prop} {before after : World}

/-- A cleanup on either platform, or the release of a plugin. -/
inductive PluginDropper
  | cleanup
  | windowsCleanup (pluginDirectory : Bytes)
  | release (platform : PluginPlatform) (plugin : Plugin)

namespace PluginDropper

def program : PluginDropper → Os Unit
  | .cleanup => cleanupPlugins
  | .windowsCleanup pluginDirectory => Windows.cleanupPlugins pluginDirectory
  | .release _ plugin => releasePlugin plugin

/-- A release goes by the anchor the plugin names. -/
def platform : PluginDropper → PluginPlatform
  | .cleanup => posixPlugins
  | .windowsCleanup pluginDirectory => Windows.plugins pluginDirectory
  | .release platform plugin =>
      { platform with
        anchor := fun name => name = plugin.anchor
        reaches := fun _ mode => mode.regular }

/-- The markers that are dropped once their files are dealt with. -/
def Drops : PluginDropper → World → Name → PluginRecord → Prop
  | .cleanup, world, marker, record => posixPlugins.Expired world marker record
  | .windowsCleanup pluginDirectory, world, marker, record =>
      Windows.opens pluginDirectory [0x2A] = true ∧
        (Windows.plugins pluginDirectory).Expired world marker record
  | .release platform plugin, world, marker, record =>
      marker = plugin.marker ∧ platform.Records world.disk marker record

/-- A plugin to be released is the one its marker records. -/
def Proper : PluginDropper → Disk → Prop
  | .release platform plugin, disk =>
      (∀ name ∈ [plugin.destination, plugin.anchor], name ≠ [] ∧
        pluginMarkerName name = false) ∧
      ∀ record, platform.Records disk plugin.marker record →
        record = ⟨plugin.volumeId, plugin.fileId, plugin.destination⟩
  | _, _ => True

end PluginDropper

theorem cleanupPlugins_wp (clear : posixPlugins.Clear refusable before) :
    Program.wp (alone self (refusing refusable)) cleanupPlugins
      (fun _ after => posixPlugins.Kept before.disk after.disk) before := by
  have still : ∀ after : World, after.disk = before.disk →
      posixPlugins.Kept before.disk after.disk := by
    intro after disk marker record name _ _ _
    rw [disk]
  simp only [cleanupPlugins, Program.perform_bind]
  refine wp_resting rfl fun checked first _ firstDisk firstPids => ?_
  split
  · exact still first firstDisk
  refine wp_resting rfl fun opened second _ secondDisk secondPids => ?_
  replace secondDisk := secondDisk.trans firstDisk
  split
  · exact still second secondDisk
  refine wp_resting rfl fun copied third _ thirdDisk thirdPids => ?_
  replace thirdDisk := thirdDisk.trans secondDisk
  split
  · exact still third thirdDisk
  refine wp_resting rfl fun listed fourth _ fourthDisk fourthPids => ?_
  replace fourthDisk := fourthDisk.trans thirdDisk
  have removing : Removing (fun _ => True) before fourth :=
    Removing.of_disk fourthDisk (fourthPids.trans (thirdPids.trans
      (secondPids.trans firstPids)))
  cases listed with
  | none => exact still fourth fourthDisk
  | some entries =>
      refine Program.wp_mono (markers_wp posixPlugins_described
        (clear.of_removing removing)) ?_
      intro _ after progress
      rw [← fourthDisk]
      exact progress.kept

/-- A scan may return an entry first. -/
theorem lists_first {disk : Disk} {name : Name} {ref : FileRef}
    (found : disk.entry (.top name) = some ref) :
    Lists (name :: (disk.names none).erase name) (disk.names none) := by
  have present := mem_names_of_entry found
  have distinct : (disk.names none).Nodup := disk.root.nodupKeys
  have same : (name :: (disk.names none).erase name).Perm (disk.names none) :=
    (List.perm_cons_erase present).symm
  exact ⟨fun candidate member => same.mem_iff.mpr member,
    fun candidate member => Or.inl (same.mem_iff.mp member),
    same.nodup_iff.mpr distinct⟩

theorem cleanupPlugins_may {marker name : Name} {record : PluginRecord}
    (idle : before.Idle self)
    (expired : posixPlugins.Expired before marker record)
    (owned : posixPlugins.owns record name = true)
    (obstructed : posixPlugins.Obstructed refusable before.disk record name) :
    Program.may (alone self (refusing refusable)) cleanupPlugins
      (fun _ after => after.disk.entry (.top marker) = none ∧
        after.disk.Identified Mode.regular name record.identity) before := by
  obtain ⟨-, ref, -, linked, -⟩ := expired.records
  simp only [cleanupPlugins, Program.perform_bind]
  refine may_quiet true rfl rfl ⟨_, rfl⟩ trivial idle fun _ first => ?_
  refine may_quiet true rfl rfl ⟨_, rfl⟩ trivial first.idle
    fun _ second => ?_
  refine may_quiet true rfl rfl ⟨_, rfl⟩ trivial second.idle fun _ third => ?_
  have toHere := (first.trans second).trans third
  refine may_scan (lists_first (toHere.disk ▸ linked)) fun scanned fourth => ?_
  have rested := toHere.trans fourth
  refine markers_may_lose posixPlugins_described rested.idle ?_ owned
    (rested.disk ▸ obstructed)
  rw [Expired, rested.disk, rested.pids]
  exact expired

theorem Windows.cleanupPlugins_wp {pluginDirectory : Bytes}
    (clear : Windows.opens pluginDirectory [0x2A] = true →
      (Windows.plugins pluginDirectory).Clear refusable before) :
    Program.wp (alone self (refusing refusable))
      (Windows.cleanupPlugins pluginDirectory)
      (fun _ after => (Windows.plugins pluginDirectory).Kept before.disk
        after.disk) before := by
  have still : ∀ after : World, after.disk = before.disk →
      (Windows.plugins pluginDirectory).Kept before.disk after.disk := by
    intro after disk marker record name _ _ _
    rw [disk]
  simp only [Windows.cleanupPlugins, Program.perform_bind]
  refine wp_resting rfl fun checked first _ firstDisk firstPids => ?_
  split
  · exact still first firstDisk
  split
  · exact still first firstDisk
  rename_i usable
  refine wp_resting rfl fun listed second _ secondDisk secondPids => ?_
  replace secondDisk := secondDisk.trans firstDisk
  cases listed with
  | none => exact still second secondDisk
  | some entries =>
      have removing : Removing (fun _ => True) before second :=
        Removing.of_disk secondDisk (secondPids.trans firstPids)
      refine Program.wp_mono (markers_wp Windows.plugins_described
        ((clear (by simpa using usable)).of_removing removing)) ?_
      intro _ after progress
      rw [← secondDisk]
      exact progress.kept

theorem Windows.cleanupPlugins_may {pluginDirectory : Bytes}
    {marker name : Name} {record : PluginRecord} (idle : before.Idle self)
    (usable : Windows.opens pluginDirectory [0x2A] = true)
    (expired : (Windows.plugins pluginDirectory).Expired before marker record)
    (owned : (Windows.plugins pluginDirectory).owns record name = true)
    (obstructed : (Windows.plugins pluginDirectory).Obstructed refusable
      before.disk record name) :
    Program.may (alone self (refusing refusable))
      (Windows.cleanupPlugins pluginDirectory)
      (fun _ after => after.disk.entry (.top marker) = none ∧
        after.disk.Identified Mode.regular name record.identity) before := by
  obtain ⟨-, ref, -, linked, -⟩ := expired.records
  simp only [Windows.cleanupPlugins, Program.perform_bind]
  refine may_quiet true rfl rfl ⟨_, rfl⟩ trivial idle fun _ first => ?_
  simp only [usable, Bool.not_true, Bool.false_eq_true, if_false]
  refine may_scan (lists_first (first.disk ▸ linked)) fun scanned second => ?_
  have rested := first.trans second
  refine markers_may_lose Windows.plugins_described rested.idle ?_ owned
    (rested.disk ▸ obstructed)
  rw [Expired, rested.disk, rested.pids]
  exact expired

/-- Whatever a deletion by identity is about, a refusable file may stay. -/
theorem removeSame_may_spare {accepts : Mode → Bool} {identity : Nat × Nat}
    {target name : Name} (idle : before.Idle self) (may : refusable name) :
    Program.may (alone self (refusing refusable))
      (removeSame accepts identity target)
      (fun _ after => after.Idle self ∧
        Removing (fun candidate => candidate = target ∧ candidate ≠ name)
          before after) before := by
  by_cases same : target = name
  · subst same
    refine Program.may_mono (removeSame_may_stay idle (Or.inl may)) ?_
    exact fun _ after rested => ⟨rested.idle, rested.removing⟩
  · refine Program.may_mono (removeSame_may idle) ?_
    rintro _ after ⟨removing, later⟩
    refine ⟨later, removing.mono ?_⟩
    rintro candidate rfl
    exact ⟨rfl, same⟩

variable {platform : PluginPlatform} {plugin : Plugin}

theorem releasePlugin_wp
    (proper : (PluginDropper.release platform plugin).Proper before.disk)
    (clear : ∀ record name, platform.Records before.disk plugin.marker record →
      name = plugin.destination ∨ name = plugin.anchor →
      before.disk.Identified Mode.regular name record.identity →
        ¬refusable name) :
    Program.wp (alone self (refusing refusable)) (releasePlugin plugin)
      (fun _ after => (PluginDropper.release platform plugin).platform.Kept
        before.disk after.disk) before := by
  obtain ⟨plain, recorded⟩ := proper
  have destination := plain plugin.destination (by simp)
  have anchor := plain plugin.anchor (by simp)
  simp only [releasePlugin]
  rw [if_pos destination.1, Program.wp_bind]
  refine Program.wp_mono removeSame_wp ?_
  rintro _ first ⟨firstRemoving, firstGone⟩
  rw [if_pos anchor.1, Program.wp_bind]
  refine Program.wp_mono removeSame_wp ?_
  rintro _ second ⟨secondRemoving, secondGone⟩
  have removing : Removing (fun name => name = plugin.destination ∨
      name = plugin.anchor) before second :=
    (firstRemoving.mono fun _ => Or.inl).trans
      (secondRemoving.mono fun _ => Or.inr)
  have others : ∀ marker, pluginMarkerName marker = true →
      second.disk.entry (.top marker) = before.disk.entry (.top marker) := by
    intro marker named
    refine removing.entry_eq ?_
    rintro (rfl | rfl)
    · rw [destination.2] at named
      cases named
    · rw [anchor.2] at named
      cases named
  by_cases marked : plugin.marker ≠ []
  · rw [if_pos marked]
    intro answer after answered
    have dropping := removing_of_unlink answered
    intro marker record name markerRecords owned identified
    by_cases same : marker = plugin.marker
    · subst same
      have shape := recorded record markerRecords
      have here := dropping.identified identified
      simp only [PluginDropper.platform, owns, Bool.or_eq_true,
        decide_eq_true_eq] at owned
      have spared : name = plugin.destination ∨ name = plugin.anchor :=
        owned.imp (fun same => by rw [same, shape]) id
      have certain := clear record name markerRecords spared
        (removing.identified here)
      rw [shape] at here
      rcases spared with rfl | rfl
      · exact absurd (secondRemoving.identified here) (firstGone certain)
      · exact absurd here (secondGone certain)
    · rw [dropping.entry_eq same]
      exact others marker markerRecords.1
  · rw [if_neg marked]
    intro marker record name markerRecords _ _
    exact others marker markerRecords.1

theorem releasePlugin_may {record : PluginRecord} {name : Name}
    (idle : before.Idle self)
    (proper : (PluginDropper.release platform plugin).Proper before.disk)
    (recorded : platform.Records before.disk plugin.marker record)
    (identified : before.disk.Identified Mode.regular name record.identity)
    (unmarked : pluginMarkerName name = false) (may : refusable name) :
    Program.may (alone self (refusing refusable)) (releasePlugin plugin)
      (fun _ after => after.disk.entry (.top plugin.marker) = none ∧
        after.disk.Identified Mode.regular name record.identity) before := by
  obtain ⟨plain, -⟩ := proper
  have destination := plain plugin.destination (by simp)
  have anchor := plain plugin.anchor (by simp)
  obtain ⟨named, ref, -, linked, -⟩ := recorded
  have marked : plugin.marker ≠ [] := by
    intro empty
    rw [empty] at named
    exact absurd named (by decide)
  have distinct : ∀ other, pluginMarkerName other = false →
      plugin.marker ≠ other := by
    rintro other unnamed rfl
    rw [named] at unnamed
    cases unnamed
  simp only [releasePlugin]
  rw [if_pos destination.1, Program.may_bind]
  refine Program.may_mono (removeSame_may_spare idle may) ?_
  rintro _ first ⟨firstIdle, firstRemoving⟩
  rw [if_pos anchor.1, Program.may_bind]
  refine Program.may_mono (removeSame_may_spare firstIdle may) ?_
  rintro _ second ⟨secondIdle, secondRemoving⟩
  rw [if_pos marked]
  have present : second.disk.entry (.top plugin.marker) = some ref := by
    rw [secondRemoving.entry_eq fun gone => distinct _ anchor.2 gone.1,
      firstRemoving.entry_eq fun gone => distinct _ destination.2 gone.1]
    exact linked
  refine may_unlink secondIdle present fun after dropping absent _ => ?_
  refine ⟨absent, dropping.keeps_identified (distinct _ unmarked).symm ?_⟩
  refine secondRemoving.keeps_identified (fun gone => gone.2 rfl) ?_
  exact firstRemoving.keeps_identified (fun gone => gone.2 rfl) identified

/-- Markers outlive what they own exactly when no file of a marker that is
dropped may be refused or overlooked. -/
theorem markers_kept_iff {dropper : PluginDropper} (idle : before.Idle self)
    (proper : dropper.Proper before.disk) :
    (∀ after, Program.Runs (alone self (refusing refusable)) dropper.program
      before () after → dropper.platform.Kept before.disk after.disk) ↔
    ∀ marker record name, dropper.Drops before marker record →
      dropper.platform.owns record name = true →
        ¬dropper.platform.Obstructed refusable before.disk record name := by
  have lost : ∀ {marker record name},
      dropper.platform.Records before.disk marker record →
      dropper.platform.owns record name = true →
      Program.may (alone self (refusing refusable)) dropper.program
        (fun _ after => after.disk.entry (.top marker) = none ∧
          after.disk.Identified Mode.regular name record.identity) before →
      ∃ after, Program.Runs (alone self (refusing refusable)) dropper.program
        before () after ∧
          ¬dropper.platform.Kept before.disk after.disk := by
    intro marker record name recorded owned may
    obtain ⟨value, after, run, absent, identified⟩ :=
      Program.may_iff_runs.mp may
    refine ⟨after, run, fun kept => ?_⟩
    have still := kept marker record name recorded owned identified
    obtain ⟨-, ref, -, linked, -⟩ := recorded
    rw [absent, linked] at still
    cases still
  constructor
  · intro always marker record name drops owned obstructed
    have loses : ∃ after, Program.Runs (alone self (refusing refusable))
        dropper.program before () after ∧
          ¬dropper.platform.Kept before.disk after.disk := by
      cases dropper with
      | cleanup =>
          exact lost drops.records owned
            (cleanupPlugins_may idle drops owned obstructed)
      | windowsCleanup pluginDirectory =>
          exact lost drops.2.records owned (Windows.cleanupPlugins_may idle
            drops.1 drops.2 owned obstructed)
      | release platform plugin =>
          obtain ⟨rfl, recorded⟩ := drops
          obtain ⟨ref, linked, regular, same, may⟩ := obstructed
          have refused : refusable name := by
            refine may.resolve_right ?_
            simp [PluginDropper.platform, regular]
          have unmarked : pluginMarkerName name = false := by
            rw [proper.2 record recorded] at owned
            simp only [PluginDropper.platform, owns, Bool.or_eq_true,
              decide_eq_true_eq] at owned
            rcases owned with rfl | rfl
            · exact (proper.1 plugin.destination (by simp)).2
            · exact (proper.1 plugin.anchor (by simp)).2
          exact lost recorded owned (releasePlugin_may idle proper recorded
            ⟨ref, linked, regular, same⟩ unmarked refused)
    obtain ⟨after, run, dropped⟩ := loses
    exact dropped (always after run)
  · intro clear after run
    cases dropper with
    | cleanup =>
        exact Program.wp_iff_runs.mp (cleanupPlugins_wp clear) () after run
    | windowsCleanup pluginDirectory =>
        refine Program.wp_iff_runs.mp (Windows.cleanupPlugins_wp ?_) () after
          run
        exact fun usable marker record name expired =>
          clear marker record name ⟨usable, expired⟩
    | release platform plugin =>
        refine Program.wp_iff_runs.mp (releasePlugin_wp proper ?_) () after run
        intro record name recorded spared identified may
        obtain ⟨ref, linked, regular, same⟩ := identified
        refine clear plugin.marker record name ⟨rfl, recorded⟩ ?_
          ⟨ref, linked, regular, same, Or.inl may⟩
        rw [proper.2 record recorded]
        simpa [PluginDropper.platform, owns] using spared

def publishedJar : Name := ascii ['a', '.', 'j', 'a', 'r']

def publishedAnchor : Name := partialStem ++ List.replicate 6 0x61

def publishedMarker : Name := markerNameOf (List.replicate 16 0)

def publishedPlugin : Plugin :=
  ⟨publishedJar, publishedMarker, publishedAnchor, 1, 1⟩

/-- A plugin directory with one published plugin. -/
def publishedDisk : Disk where
  root := (AList.singleton publishedJar (.file ⟨0, 1⟩)).insert publishedAnchor
    (.file ⟨0, 1⟩) |>.insert publishedMarker (.file ⟨1, 2⟩)
  directories _ := ⟨∅, .privateDirectory, none, []⟩
  files ref := if ref.inode = 1 then ⟨[], .privateFile, some 0⟩
    else ⟨pluginText 5 0 1 1 publishedJar, .privateFile, some 0⟩
  volume := 1
  nextDirectory := 0
  nextFile := 2
  origin _ := none

def publishedWorld : World := World.initial.withDisk publishedDisk

private theorem publishedDisk_records :
    posixPlugins.Records publishedDisk publishedMarker
      ⟨1, 1, publishedJar⟩ := by
  refine ⟨by decide +kernel, ⟨1, 2⟩, 5, by decide +kernel, ?_⟩
  have small : 5 < 2 ^ 63 := by decide
  have epoch : (0 : Int64) ≤ 0 := by decide
  have narrow : 1 < 2 ^ 64 := by decide
  have markable : MarkableName publishedJar :=
    ⟨by decide, by decide, by decide⟩
  exact pluginRecord_pluginText small epoch narrow narrow markable

private theorem publishedPlugin_proper :
    (PluginDropper.release posixPlugins publishedPlugin).Proper
      publishedDisk := by
  refine ⟨by decide +kernel, fun record recorded => ?_⟩
  exact recorded.unique publishedDisk_records

private theorem publishedDisk_identified :
    publishedDisk.Identified Mode.regular publishedJar (1, 1) :=
  ⟨⟨0, 1⟩, by decide +kernel, by decide, rfl⟩

/-- A host that keeps the JAR open makes the release drop the marker of a JAR
that stays. -/
theorem releasePlugin_loses_marker :
    ∃ after, Program.Runs (alone 0 (refusing (· = publishedJar)))
        (releasePlugin publishedPlugin) publishedWorld () after ∧
      after.disk.Identified Mode.regular publishedJar (1, 1) ∧
      ¬posixPlugins.Kept publishedWorld.disk after.disk := by
  have idle : publishedWorld.Idle 0 := rfl
  have may : Program.may (alone 0 (refusing (· = publishedJar)))
      (releasePlugin publishedPlugin)
      (fun _ after => after.disk.entry (.top publishedMarker) = none ∧
        after.disk.Identified Mode.regular publishedJar (1, 1))
      publishedWorld :=
    releasePlugin_may idle publishedPlugin_proper publishedDisk_records
      publishedDisk_identified (by decide +kernel) rfl
  obtain ⟨value, after, run, absent, identified⟩ :=
    Program.may_iff_runs.mp may
  refine ⟨after, run, identified, fun kept => ?_⟩
  have still := kept publishedMarker ⟨1, 1, publishedJar⟩ publishedJar
    publishedDisk_records (by decide) identified
  rw [absent] at still
  exact absurd still (by decide +kernel)

/-- Releasing the same plugin keeps its marker as long as the JAR can be
deleted, and only then. -/
theorem markers_kept_published :
    (∀ after, Program.Runs (alone 0 (refusing fun _ => False))
      (releasePlugin publishedPlugin) publishedWorld () after →
        (PluginDropper.release posixPlugins publishedPlugin).platform.Kept
          publishedWorld.disk after.disk) ∧
    ¬∀ after, Program.Runs (alone 0 (refusing (· = publishedJar)))
      (releasePlugin publishedPlugin) publishedWorld () after →
        (PluginDropper.release posixPlugins publishedPlugin).platform.Kept
          publishedWorld.disk after.disk := by
  have idle : publishedWorld.Idle 0 := rfl
  constructor
  · refine (markers_kept_iff idle publishedPlugin_proper).mpr ?_
    rintro marker record name - - ⟨ref, -, regular, -, may⟩
    refine may.elim id ?_
    simp [PluginDropper.platform, regular]
  · intro always
    refine (markers_kept_iff idle publishedPlugin_proper).mp always
      publishedMarker ⟨1, 1, publishedJar⟩ publishedJar
      ⟨rfl, publishedDisk_records⟩ (by decide) ?_
    obtain ⟨ref, linked, regular, same⟩ := publishedDisk_identified
    exact ⟨ref, linked, regular, same, Or.inl rfl⟩

end RymgaLoader.Native
