import RymgaLoader.Native.Contents
import RymgaLoader.Native.Platform

/-!
# Making and removing a temporary directory alone

What the functions of `rymga_platform_posix.c` for temporary directories do
when nobody else touches the shared directory, under any condition on the
outcomes of their calls.
-/

namespace RymgaLoader.Native

open Disk

/-- Deletions fail only where there is nothing to delete. -/
def deletionsSucceed (call : Call) (world : World) (answer : Answer call) :
    Prop :=
  match call, answer with
  | .unlink place, answer => answer = false → world.disk.lookup place = none
  | .rmdir name, answer => answer = false →
      world.removeEmptyDirectory name = none
  | .rmdirAt name, answer => answer = false →
      world.removeEmptyDirectory name = none
  | _, _ => True

/-- No call that has work to do fails. -/
def callsSucceed (call : Call) (_ : World) (answer : Answer call) : Prop :=
  match call, answer with
  | .allocate, answer => answer = true
  | .setup, answer => answer = true
  | .directoryOk, answer => answer = true
  | .makeDirectory, answer => answer = true
  | .chmod, answer => answer = true
  | .fsync _, answer => answer = true
  | .close, answer => answer = true
  | .rename _ _ _, answer => answer = true
  | .duplicatePaths, answer => answer = (true, true)
  | .mkdtemp, answer => answer.isSome
  | .openExcl _, answer => ∃ ref, answer = .opened ref
  | .write _ bytes, answer => bytes ≠ [] → ∃ count, answer = some (count + 1)
  | _, _ => True

section

variable {self : Process}
  {allowed : (call : Call) → World → Answer call → Prop}

/-- Every allowed outcome meets `condition`. -/
def Ensures (allowed condition : (call : Call) → World → Answer call → Prop) :
    Prop :=
  ∀ call world answer, allowed call world answer →
    condition call world answer

/-- A call whose failure ends the program. -/
theorem wp_guard {α : Type} {call : Call} {refused : Answer call → Bool}
    {failure : α} {rest : Os α} {post : α → World → Prop} {before : World}
    (quiet : call.changesDisk = false)
    (required : ∀ world answer, callsSucceed call world answer →
      refused answer = false)
    (failed : ∀ after, after.disk = before.disk →
      ¬Ensures allowed callsSucceed → post failure after)
    (passed : ∀ after, after.disk = before.disk →
      Program.wp (alone self allowed) rest post after) :
    Program.wp (alone self allowed)
      (.call call fun answer => if refused answer then pure failure else rest)
      post before := by
  refine wp_quiet quiet fun answer after permitted same => ?_
  cases outcome : refused answer with
  | true =>
      refine failed after same fun ensures => ?_
      rw [required _ _ (ensures _ _ _ permitted)] at outcome
      cases outcome
  | false => exact passed after same

theorem append_append (disk : Disk) (ref : FileRef) (first second : Bytes) :
    (disk.append ref first).append ref second =
      disk.append ref (first ++ second) := by
  simp [Disk.append, Disk.setFile]

theorem append_nil (disk : Disk) (ref : FileRef) :
    disk.append ref [] = disk := by
  simp [Disk.append, Disk.setFile]

/-- A part of `bytes` was appended, all of it on success. -/
structure Wrote (allowed : (call : Call) → World → Answer call → Prop)
    (file : FileRef) (bytes : Bytes) (before : World) (ok : Bool)
    (after : World) : Prop where
  disk : ∃ written, after.disk = before.disk.append file written ∧
    (ok = true → written = bytes)
  trivial : bytes = [] → ok = true
  succeeds : Ensures allowed callsSucceed → ok = true

private theorem writeRounds_wp {file : FileRef} {rounds : Nat} {bytes : Bytes}
    (enough : bytes.length ≤ rounds) (before : World) :
    Program.wp (alone self allowed) (writeRounds file rounds bytes)
      (Wrote allowed file bytes before) before := by
  induction rounds generalizing bytes before with
  | zero =>
      cases bytes with
      | nil =>
          exact ⟨⟨[], (append_nil _ _).symm, fun _ => rfl⟩, fun _ => rfl,
            fun _ => rfl⟩
      | cons byte bytes => cases enough
  | succ rounds ih =>
      cases bytes with
      | nil =>
          exact ⟨⟨[], (append_nil _ _).symm, fun _ => rfl⟩, fun _ => rfl,
            fun _ => rfl⟩
      | cons byte bytes =>
          simp only [writeRounds, Program.perform_bind]
          intro answer between answered
          obtain ⟨done, permitted⟩ := answered
          rcases World.exec_write done with ⟨rfl, same⟩ | ⟨count, rfl, small,
            written⟩
          · refine ⟨⟨[], ?_, by simp⟩, by simp, ?_⟩
            · rw [same, append_nil]
            · intro ensures
              obtain ⟨count, impossible⟩ := ensures _ _ _ permitted (by simp)
              cases impossible
          · cases count with
            | zero =>
                refine ⟨⟨[], ?_, by simp⟩, by simp, ?_⟩
                · rw [written, List.take_zero]
                · intro ensures
                  obtain ⟨count, impossible⟩ := ensures _ _ _ permitted (by simp)
                  cases impossible
            | succ count =>
                have fewer : ((byte :: bytes).drop (count + 1)).length ≤
                    rounds := by
                  rw [List.length_drop]
                  omega
                refine Program.wp_mono (ih fewer between) ?_
                rintro ok after ⟨⟨rest, disk, complete⟩, -, succeeds⟩
                refine ⟨⟨(byte :: bytes).take (count + 1) ++ rest, ?_, ?_⟩,
                  by simp, succeeds⟩
                · rw [disk, written, append_append]
                · intro done
                  rw [complete done, List.take_append_drop]

theorem writeAll_wp {file : FileRef} {bytes : Bytes} (before : World) :
    Program.wp (alone self allowed) (writeAll file bytes)
      (Wrote allowed file bytes before) before :=
  writeRounds_wp (Nat.le_refl _) before

variable {base : Disk} {name : Name} {entries : Name → Option FileRef}
  {before after : World}

theorem unlink_holding (deletes : Ensures allowed deletionsSucceed)
    (holding : Holding base name entries before.disk) {removed : Name}
    {answer : Bool}
    (answered : alone self allowed (.unlink (.path name removed)) before answer
      after) :
    Holding base name (Function.update entries removed none) after.disk := by
  obtain ⟨done, permitted⟩ := answered
  rcases World.exec_unlink done with ⟨rfl, same⟩ | ⟨slot, rfl, resolved, -,
    same⟩
  · have absent : entries removed = none := by
      rw [← holding.lookup_path]
      exact deletes _ _ _ permitted rfl
    rw [same, ← absent, Function.update_eq_self]
    exact holding
  · rw [holding.resolve_path] at resolved
    cases resolved
    rw [same]
    exact holding.detach removed

theorem entries_eq_nil_iff {listed : AList fun _ : Name => FileRef} :
    listed.entries = [] ↔ ∀ name, listed.lookup name = none := by
  constructor
  · intro empty name
    rw [AList.lookup_eq_none, AList.mem_keys, AList.keys, empty]
    simp
  · intro absent
    cases shape : listed.entries with
    | nil => rfl
    | cons head tail =>
        have present : head.1 ∈ listed := by
          rw [AList.mem_keys, AList.keys, shape]
          simp
        exact absurd present (AList.lookup_eq_none.mp (absent head.1))

theorem removeEmptyDirectory_holding
    (holding : Holding base name entries before.disk) :
    before.removeEmptyDirectory name = none ↔
      ¬∀ candidate, entries candidate = none := by
  have empty : ((before.disk.directories base.nextDirectory).entries.entries =
      []) ↔ ∀ candidate, entries candidate = none := by
    rw [entries_eq_nil_iff]
    simp only [holding.listed]
  simp only [World.removeEmptyDirectory, holding.subdirectory_eq, empty]
  split <;> simp_all

theorem rmdir_holding (deletes : Ensures allowed deletionsSucceed)
    (holding : Holding base name entries before.disk)
    (absent : base.root.lookup name = none)
    (empty : ∀ candidate, entries candidate = none) {answer : Bool}
    (answered : alone self allowed (.rmdir name) before answer after) :
    Settled base after.disk := by
  obtain ⟨done, permitted⟩ := answered
  rcases World.exec_rmdir done with ⟨rfl, same⟩ | ⟨id, rfl, -, -, same⟩
  · have impossible : before.removeEmptyDirectory name = none :=
      deletes _ _ _ permitted rfl
    exact absurd empty ((removeEmptyDirectory_holding holding).mp impossible)
  · rw [same]
    exact holding.removeDirectory absent

/-- A directory with an entry left in it stays. -/
theorem rmdir_occupied (holding : Holding base name entries before.disk)
    {candidate : Name} {ref : FileRef} (present : entries candidate = some ref)
    {answer : Bool}
    (answered : alone self allowed (.rmdir name) before answer after) :
    after.disk = before.disk := by
  obtain ⟨done, -⟩ := answered
  rcases World.exec_rmdir done with ⟨-, same⟩ | ⟨id, -, found, empty, -⟩
  · exact same
  · rw [holding.subdirectory_eq] at found
    cases found
    have vacant := entries_eq_nil_iff.mp empty candidate
    rw [holding.listed, present] at vacant
    cases vacant

/-- The path of the marker fits its buffer. -/
abbrev MarkerFits (runtimeDirectory : Bytes) (name : Name) : Prop :=
  (slashed (slashed runtimeDirectory name) ownerMarker).length < pathMax

variable {runtimeDirectory : Bytes}

theorem removeDirectory_wp (deletes : Ensures allowed deletionsSucceed)
    (fits : MarkerFits runtimeDirectory name)
    (absent : base.root.lookup name = none)
    (holding : Holding base name entries before.disk)
    (cleared : ∀ candidate, candidate ≠ ownerMarker →
      entries candidate = none) :
    Program.wp (alone self allowed) (removeDirectory runtimeDirectory name)
      (fun _ after => Settled base after.disk) before := by
  simp only [removeDirectory, Program.perform_bind]
  rw [if_pos fits]
  intro unlinked between answered removed after answered'
  have emptied := unlink_holding deletes holding answered
  refine rmdir_holding deletes emptied absent ?_ answered'
  intro candidate
  by_cases marker : candidate = ownerMarker
  · rw [marker, Function.update_self]
  · rw [Function.update_of_ne marker]
    exact cleared candidate marker

/-- With something besides the marker inside, only the marker goes. -/
theorem removeDirectory_occupied (deletes : Ensures allowed deletionsSucceed)
    (fits : MarkerFits runtimeDirectory name)
    (holding : Holding base name entries before.disk) {candidate : Name}
    {ref : FileRef} (different : candidate ≠ ownerMarker)
    (present : entries candidate = some ref) :
    Program.wp (alone self allowed) (removeDirectory runtimeDirectory name)
      (fun _ after => Holding base name
        (Function.update entries ownerMarker none) after.disk) before := by
  simp only [removeDirectory, Program.perform_bind]
  rw [if_pos fits]
  intro unlinked between answered removed after answered'
  have emptied := unlink_holding deletes holding answered
  have kept : Function.update entries ownerMarker none candidate = some ref :=
    (Function.update_of_ne different _ _).trans present
  have same : after.disk = between.disk :=
    rmdir_occupied emptied kept answered'
  change Holding base name (Function.update entries ownerMarker none)
    after.disk
  rw [same]
  exact emptied

/-- The marker of a directory made by `self` is complete. -/
def MarkerWritten (self : Process) (pid : Nat) (name : Name)
    (marker : FileRef) (disk : Disk) : Prop :=
  ∃ created : Int64, 0 ≤ created ∧ disk.files marker =
    ⟨ownerText pid created name, .privateFile, some self⟩

/-- The entries of a directory that holds its marker only. -/
def markerOnly (marker : FileRef) : Name → Option FileRef :=
  Function.update (fun _ => none) ownerMarker (some marker)

/-- The entries of a directory that holds its marker and one more file. -/
def alongside (marker : FileRef) (added : Name) (file : FileRef) :
    Name → Option FileRef :=
  Function.update (markerOnly marker) added (some file)

/-- The new directory `name` holds its complete marker and nothing else. -/
structure Marked (owner : Process) (runtimeDirectory : Bytes) (pid : Nat)
    (base : Disk) (name : Name) (disk : Disk) : Prop where
  temp : tempName name = true
  absent : base.root.lookup name = none
  fits : MarkerFits runtimeDirectory name
  holding : ∃ marker, MarkerWritten owner pid name marker disk ∧
    Holding base name (markerOnly marker) disk

/-- What `createMarker` leaves in the directory just made. -/
structure MarkerAttempt (owner : Process)
    (allowed : (call : Call) → World → Answer call → Prop)
    (runtimeDirectory : Bytes) (pid : Nat) (base : Disk) (name : Name)
    (ok : Bool) (after : World) : Prop where
  made : ok = true → MarkerFits runtimeDirectory name ∧
    ∃ marker, MarkerWritten owner pid name marker after.disk ∧
      Holding base name (markerOnly marker) after.disk
  undone : ok = false → Ensures allowed deletionsSucceed →
    Holding base name (fun _ => none) after.disk
  succeeds : Ensures allowed callsSucceed →
    (∀ created : Int64, 0 ≤ created →
      (ownerText pid created name).length < 160) →
    MarkerFits runtimeDirectory name → ok = true

private theorem removeMarker_wp {marker : Option FileRef}
    (holding : Holding base name
      (Function.update (fun _ => none) ownerMarker marker) before.disk) :
    Program.wp (alone self allowed)
      (.call (.unlink (.path name ownerMarker)) fun _ => .done false)
      (fun ok after => ok = false ∧ (Ensures allowed deletionsSucceed →
        Holding base name (fun _ => none) after.disk)) before := by
  intro answer after answered
  refine ⟨rfl, fun deletes => ?_⟩
  have removed := unlink_holding deletes holding answered
  rw [Function.update_idem] at removed
  rw [Function.update_eq_self_iff.mpr rfl] at removed
  exact removed

theorem createMarker_wp
    (holding : Holding base name (fun _ => none) before.disk) :
    Program.wp (alone self allowed) (createMarker runtimeDirectory name)
      (MarkerAttempt self allowed runtimeDirectory (before.pidOf self) base
        name) before := by
  simp only [createMarker, Program.perform_bind]
  intro pid afterPid answeredPid
  obtain ⟨rfl, samePid⟩ := World.exec_getpid answeredPid.1
  intro created afterTime answeredTime
  obtain ⟨epoch, sameTime⟩ := World.exec_time answeredTime.1
  have same : afterTime.disk = before.disk := sameTime.trans samePid
  rw [← same] at holding
  dsimp only
  by_cases tooLong : (ownerText (before.pidOf self) created name).length ≥ 160 ∨
      (slashed (slashed runtimeDirectory name) ownerMarker).length ≥ pathMax
  · rw [if_pos tooLong]
    refine ⟨by simp, fun _ _ => holding, ?_⟩
    intro _ short fits
    exact absurd tooLong (by
      rw [not_or, not_le, not_le]
      exact ⟨short created epoch, fits⟩)
  rw [if_neg tooLong]
  rw [not_or, not_le, not_le] at tooLong
  intro opened between answered
  rcases World.exec_openExcl answered.1 with ⟨notOpened, sameDisk⟩ |
    ⟨marker, slot, rfl, resolved, -, fresh, created'⟩
  · rw [← sameDisk] at holding
    have unchanged : Holding base name (Function.update (fun _ => none)
        ownerMarker none) between.disk := by
      rw [Function.update_eq_self_iff.mpr rfl]
      exact holding
    have failed : Program.wp (alone self allowed)
        (.call (.unlink (.path name ownerMarker)) fun _ => .done false)
        (MarkerAttempt self allowed runtimeDirectory (before.pidOf self) base
          name) between := by
      refine Program.wp_mono (removeMarker_wp unchanged) ?_
      rintro ok after ⟨rfl, undone⟩
      refine ⟨by simp, fun _ => undone, ?_⟩
      intro ensures
      obtain ⟨ref, impossible⟩ := ensures _ _ _ answered.2
      exact absurd impossible (notOpened ref)
    cases opened with
    | opened ref => exact absurd rfl (notOpened ref)
    | occupied => exact failed
    | failed => exact failed
  · rw [holding.resolve_path] at resolved
    cases resolved
    have made := holding.create ownerMarker self fresh
    rw [← created'] at made
    have newer := (made.linked ownerMarker marker (by simp)).1
    have blank : between.disk.files marker =
        ⟨[], .privateFile, some self⟩ := by
      rw [created']
      exact Function.update_self ..
    dsimp only
    rw [Program.wp_bind]
    refine Program.wp_mono (writeAll_wp between) ?_
    rintro written afterWrite ⟨⟨text, grown, complete⟩, -, writes⟩
    have written' : afterWrite.disk.files marker =
        ⟨text, .privateFile, some self⟩ := by
      rw [grown, Disk.append, Disk.setFile, blank]
      exact Function.update_self ..
    have holds : Holding base name (Function.update (fun _ => none)
        ownerMarker (some marker)) afterWrite.disk := by
      rw [grown]
      exact made.append newer text
    cases written with
    | false =>
        refine wp_quiet rfl fun closed afterClose _ sameClose => ?_
        rw [← sameClose] at holds
        refine Program.wp_mono (removeMarker_wp holds) ?_
        rintro ok after ⟨rfl, undone⟩
        exact ⟨by simp, fun _ => undone, fun ensures => absurd (writes ensures)
          (by simp)⟩
    | true =>
        refine wp_quiet rfl fun synced afterSync syncAllowed sameSync => ?_
        refine wp_quiet rfl fun closed afterClose closeAllowed sameClose => ?_
        have sameDisk := sameClose.trans sameSync
        rw [← sameDisk] at holds written'
        by_cases finished : (synced && closed) = true
        · rw [if_pos finished]
          refine ⟨fun _ => ⟨tooLong.2, marker, ⟨created, epoch, ?_⟩, holds⟩,
            by simp, fun _ _ _ => rfl⟩
          rw [written', complete rfl]
        · rw [if_neg finished]
          refine Program.wp_mono (removeMarker_wp holds) ?_
          rintro ok after ⟨rfl, undone⟩
          refine ⟨by simp, fun _ => undone, fun ensures => ?_⟩
          have synced' : synced = true := ensures _ _ _ syncAllowed
          have closed' : closed = true := ensures _ _ _ closeAllowed
          exact absurd (by rw [synced', closed']; rfl) finished

/-- Path and text of every marker the process may write fit their buffers. -/
def MarkersFit (runtimeDirectory : Bytes) (pid : Nat) : Prop :=
  ∀ name, tempName name = true → MarkerFits runtimeDirectory name ∧
    ∀ created : Int64, 0 ≤ created → (ownerText pid created name).length < 160

/-- What `makeTempDirectory` returns and leaves behind. -/
structure TempAttempt (owner : Process)
    (allowed : (call : Call) → World → Answer call → Prop)
    (runtimeDirectory : Bytes) (pid : Nat) (base : Disk)
    (result : Option Name) (after : World) : Prop where
  made : ∀ name, result = some name →
    Marked owner runtimeDirectory pid base name after.disk
  undone : result = none → Ensures allowed deletionsSucceed →
    Settled base after.disk
  succeeds : Ensures allowed callsSucceed → MarkersFit runtimeDirectory pid →
    result.isSome = true

private theorem discardNew_wp {pid : Nat}
    (absent : base.root.lookup name = none)
    (empty : Ensures allowed deletionsSucceed →
      Holding base name (fun _ => none) before.disk)
    (fails : Ensures allowed callsSucceed →
      ¬MarkersFit runtimeDirectory pid) :
    Program.wp (alone self allowed)
      (.call (.rmdir name) fun _ => .done (none : Option Name))
      (TempAttempt self allowed runtimeDirectory pid base) before := by
  intro removed after answered
  refine ⟨by simp, fun _ deletes => ?_, fun ensures fits =>
    (fails ensures fits).elim⟩
  exact rmdir_holding deletes (empty deletes) absent (fun _ => rfl) answered

theorem makeTempDirectory_wp :
    Program.wp (alone self allowed) (makeTempDirectory runtimeDirectory)
      (TempAttempt self allowed runtimeDirectory (before.pidOf self)
        before.disk) before := by
  simp only [makeTempDirectory, Program.perform_bind]
  by_cases tooLong : (slashed runtimeDirectory tempStem).length + 6 ≥ pathMax
  · rw [if_pos tooLong]
    refine ⟨by simp, fun _ _ => Settled.refl _, ?_⟩
    intro _ fits
    obtain ⟨short, -⟩ := fits (tempStem ++ List.replicate 6 0x61) (by decide)
    simp only [MarkerFits, slashed, List.length_append, List.length_cons,
      List.length_replicate] at short tooLong
    omega
  rw [if_neg tooLong]
  intro made between answered
  rcases World.exec_mkdtemp answered.1 with ⟨rfl, same⟩ |
    ⟨name, rfl, temp, absent, disk⟩
  · refine ⟨by simp, fun _ _ => same ▸ Settled.refl _, fun ensures => ?_⟩
    exact absurd (ensures _ _ _ answered.2) (by simp [callsSucceed])
  intro changed afterMode answeredMode
  have holding : Holding before.disk name (fun _ => none) afterMode.disk := by
    rw [World.exec_disk rfl answeredMode.1, disk]
    exact Holding.makeDirectory
  have pid : afterMode.pidOf self = before.pidOf self := by
    rw [(World.exec_frame answeredMode.1).2.1,
      (World.exec_frame answered.1).2.1]
  cases changed with
  | false =>
      refine discardNew_wp absent (fun _ => holding) fun ensures => ?_
      exact absurd (ensures _ _ _ answeredMode.2) (by simp [callsSucceed])
  | true =>
      simp only [if_true]
      rw [Program.wp_bind]
      refine Program.wp_mono (createMarker_wp holding) ?_
      rintro ready marked ⟨made, undone, succeeds⟩
      rw [pid] at made succeeds
      cases ready with
      | false =>
          refine discardNew_wp absent (undone rfl) fun ensures fits => ?_
          obtain ⟨markerFits, short⟩ := fits name temp
          exact absurd (succeeds ensures short markerFits) (by simp)
      | true =>
          obtain ⟨markerFits, holds⟩ := made rfl
          refine ⟨?_, by simp, fun _ _ => rfl⟩
          rintro candidate ⟨⟩
          exact ⟨temp, absent, markerFits, holds⟩

end

end RymgaLoader.Native
