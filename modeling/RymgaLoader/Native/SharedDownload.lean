import RymgaLoader.Native.Filenames
import RymgaLoader.Native.OwnDirectory

/-!
# Downloading among other processes

`make_temp_directory`, `download_artifact` and `rymga_loader_artifact_release`
while other processes work in the same runtime directory.  Every call stays
inside the process's own directory, and the marker is complete before the
artifact appears and outlives it.
-/

namespace RymgaLoader.Native

open Interleaving

section

variable {tidy : Prop}
  {condition : Process → (call : Call) → World → Answer call → Prop}
  {self : Process} {pid : Nat} {name : Name} {id : Nat}
  {entries : Name → Option FileRef} {before after : World}

/-- A directory of the process with a complete marker. -/
structure OwnsMarked (process : Process) (pid : Nat) (name : Name) (id : Nat)
    (entries : Name → Option FileRef) (world : World) : Prop where
  owns : Owns process pid name id entries world
  marked : ∃ marker created, entries ownerMarker = some marker ∧
    0 ≤ created ∧ Stored process (.inside id ownerMarker) marker
      (ownerText pid created name) world

theorem OwnsMarked.rests
    (marked : OwnsMarked self pid name id entries before)
    (rested : before.Rests self after) :
    OwnsMarked self pid name id entries after := by
  obtain ⟨owns, marker, created, linked, epoch, stored⟩ := marked
  exact ⟨owns.rests rested, marker, created, linked, epoch,
    stored.rests rested⟩

theorem lasting_ownsMarked :
    Lasting tidy condition self (OwnsMarked self pid name id entries) where
  stable := by
    rintro first second settled settledAfter relied
      ⟨owns, marker, created, linked, epoch, stored⟩
    exact ⟨lasting_owns.stable first second settled settledAfter relied owns,
      marker, created, linked, epoch,
      lasting_stored.stable first second settled settledAfter relied stored⟩
  rests _ _ rested marked := marked.rests rested

theorem OwnsMarked.sealed
    (marked : OwnsMarked self pid name id entries before)
    (settled : before.Settled tidy) :
    before.disk.Sealed before.pidOf id := by
  obtain ⟨owns, marker, created, linked, epoch, stored⟩ := marked
  refine ⟨marker, ?_, self, created, owns.creator, epoch, ?_⟩
  · rw [owns.entries, linked]
  · rw [stored.file, owns.pid, (owns.older settled).2]

/-- The loop of `write_all` on a file of the process, given what one write
keeps. -/
theorem writeAll_robust {kept : World → Prop} {slot : Slot} {file : FileRef}
    {start bytes : Bytes} (lasting : Lasting tidy condition self kept)
    (step : ∀ middle written rest answer after, middle.Settled tidy →
      kept middle → Stored self slot file written middle →
      written ++ rest = start ++ bytes →
      acts self (.write file rest) middle answer after →
        (owning tidy condition).Keeps self (.write file rest) middle answer
          after ∧ kept after ∧
        Stored self slot file (written ++ rest.take (answer.getD 0)) after)
    (holds : kept before)
    (stored : Stored self slot file start before) :
    (owning tidy condition).Robust self
      (fun ok world => kept world ∧ ∃ content,
        Stored self slot file content world ∧
          (ok = true → content = start ++ bytes))
      (writeAll file bytes) before := by
  have leave : ∀ ok content world, kept world →
      Stored self slot file content world →
      (ok = true → content = start ++ bytes) →
        (owning tidy condition).Robust self
          (fun ok world => kept world ∧ ∃ content,
            Stored self slot file content world ∧
              (ok = true → content = start ++ bytes)) (.done ok) world := by
    intro ok content world holds stored complete
    exact robust_done (lasting.and (.exists fun _ =>
      lasting_stored.and (.const _))) ⟨holds, content, stored, complete⟩
  have rounds : ∀ count written rest world, rest.length ≤ count →
      written ++ rest = start ++ bytes → kept world →
      Stored self slot file written world →
        (owning tidy condition).Robust self
          (fun ok world => kept world ∧ ∃ content,
            Stored self slot file content world ∧
              (ok = true → content = start ++ bytes))
          (writeRounds file count rest) world := by
    intro count
    induction count with
    | zero =>
        intro written rest world short split holds stored
        cases rest with
        | nil =>
            exact leave true written world holds stored fun _ => by
              rw [← split, List.append_nil]
        | cons byte rest => cases short
    | succ count ih =>
        intro written rest world short split holds stored
        cases rest with
        | nil =>
            exact leave true written world holds stored fun _ => by
              rw [← split, List.append_nil]
        | cons byte rest =>
            simp only [writeRounds, Program.perform_bind]
            refine robust_call (lasting.and lasting_stored) ⟨holds, stored⟩ ?_
            rintro middle answer after settled ⟨holds, stored⟩ acted -
            obtain ⟨keeps, holds, stored⟩ := step middle written
              (byte :: rest) answer after settled holds stored split acted
            refine ⟨keeps, ?_⟩
            cases answer with
            | none => exact leave false _ after holds stored (by rintro ⟨⟩)
            | some taken =>
                cases taken with
                | zero =>
                    exact leave false _ after holds stored (by rintro ⟨⟩)
                | succ taken =>
                    refine ih _ _ after ?_ ?_ holds stored
                    · rw [List.length_drop]
                      simp only [List.length_cons] at short ⊢
                      omega
                    · rw [List.append_assoc, Option.getD_some,
                        List.take_append_drop, split]
  exact rounds bytes.length start bytes before (Nat.le_refl _) rfl holds stored

/-- Only the marker may be in the directory. -/
def Markerlike (entries : Name → Option FileRef) : Prop :=
  ∀ file ref, entries file = some ref → file = ownerMarker

/-- What `create_marker` leaves behind. -/
def MarkerTried (process : Process) (pid : Nat) (name : Name) (id : Nat)
    (ok : Bool) (world : World) : Prop :=
  ∃ entries, Markerlike entries ∧ Owns process pid name id entries world ∧
    (ok = true → OwnsMarked process pid name id entries world)

theorem lasting_markerTried {ok : Bool} :
    Lasting tidy condition self (MarkerTried self pid name id ok) :=
  .exists fun _ => (Lasting.const _).and
    (lasting_owns.and (.imp lasting_ownsMarked))

theorem Markerlike.unlinked {left : Name → Option FileRef}
    (markerlike : Markerlike entries)
    (unlinked : Unlinked tidy ownerMarker entries left) :
    Markerlike left := by
  intro file ref found
  by_cases same : file = ownerMarker
  · exact same
  · rw [unlinked.others file same] at found
    exact markerlike file ref found

theorem Markerlike.last (markerlike : Markerlike entries) (other : Name)
    (different : other ≠ ownerMarker) : entries other = none := by
  cases found : entries other with
  | none => rfl
  | some ref => exact absurd (markerlike other ref found) different

theorem giveUpMarker_robust (permits : Permits tidy condition)
    (markerlike : Markerlike entries)
    (owns : Owns self pid name id entries before) :
    (owning tidy condition).Robust self (MarkerTried self pid name id)
      (.call (.unlink (.path name ownerMarker)) fun _ => .done false)
      before := by
  refine robust_call lasting_owns owns ?_
  intro middle answer after settled owns acted met
  obtain ⟨keeps, left, owns, unlinked⟩ := keeps_unlink permits settled owns
    acted met fun _ _ => markerlike.last
  exact ⟨keeps, robust_done lasting_markerTried
    ⟨left, markerlike.unlinked unlinked, owns, by rintro ⟨⟩⟩⟩

/-- A piece of the marker is written while nothing else is in the
directory. -/
theorem keeps_writeMarker {now : Int64} {marker : FileRef}
    {written rest : Bytes} {answer : Option Nat} (epoch : 0 ≤ now)
    (only : Markerlike entries) (settled : before.Settled tidy)
    (owns : Owns self pid name id entries before)
    (stored : Stored self (.inside id ownerMarker) marker written before)
    (whole : written ++ rest = ownerText pid now name)
    (acted : acts self (.write marker rest) before answer after) :
    (owning tidy condition).Keeps self (.write marker rest) before answer
        after ∧
      Owns self pid name id entries after ∧
      Stored self (.inside id ownerMarker) marker
        (written ++ rest.take (answer.getD 0)) after := by
  refine (keeps_write settled stored acted ?_).imp_right ?_
  · intro other count same
    cases same
    refine ⟨⟨self, now, owns.creator, epoch, ?_⟩, ?_⟩
    · rw [owns.pid, (owns.older settled).2, ← whole]
      exact (List.prefix_append_right_inj _).mpr (List.take_prefix _ _)
    · intro _ file different
      rw [owns.entries, only.last file different]
  · rintro ⟨stored, kept, -⟩
    exact ⟨kept _ _ _ _ owns, stored⟩

/-- Once a file was created as the marker, nothing else is there. -/
theorem markerlike_update (marker : FileRef) : Markerlike
    (Function.update (fun _ => none) ownerMarker (some marker)) := by
  intro file ref found
  by_contra different
  rw [Function.update_of_ne different] at found
  cases found

theorem createMarker_robust {runtimeDirectory : Bytes}
    (permits : Permits tidy condition)
    (owns : Owns self pid name id (fun _ => none) before) :
    (owning tidy condition).Robust self (MarkerTried self pid name id)
      (createMarker runtimeDirectory name) before := by
  simp only [createMarker, Program.perform_bind]
  refine robust_quiet lasting_owns owns rfl ?_
  intro middle process afterPid settled owns acted _ ownsAfter
  have same : process = pid :=
    (World.exec_getpid acted.2.1).1.trans owns.pid
  subst same
  refine robust_quiet lasting_owns ownsAfter rfl ?_
  intro middle now afterTime settled _ acted _ owns
  have epoch := (World.exec_time acted.2.1).1
  have blank : Markerlike fun _ => none := by
    rintro file ref ⟨⟩
  split
  · exact robust_done lasting_markerTried
      ⟨_, blank, owns, by rintro ⟨⟩⟩
  refine robust_call lasting_owns owns ?_
  intro middle answer opened settled owns acted _
  obtain ⟨keeps, outcome⟩ := keeps_openExcl settled owns (Or.inl rfl)
    (fun _ different => absurd rfl different)
    (fun different => absurd rfl different) acted
  refine ⟨keeps, ?_⟩
  rcases outcome with ⟨failed, rested⟩ | ⟨marker, rfl, owns, stored, -⟩
  · have still := owns.rests rested
    cases answer with
    | opened ref => exact absurd rfl (failed ref)
    | occupied => exact giveUpMarker_robust permits blank still
    | failed => exact giveUpMarker_robust permits blank still
  have only := markerlike_update marker
  refine Discipline.Robust.bind (writeAll_robust lasting_owns ?_ owns stored)
    ?_
  · intro middle written rest answer after settled owns stored split acted
    exact keeps_writeMarker epoch only settled owns stored split acted
  rintro written after ⟨owns, content, stored, complete⟩
  cases written with
  | false =>
      refine robust_quiet lasting_owns owns rfl ?_
      intro _ closed afterClose _ _ _ _ owns
      exact giveUpMarker_robust permits only owns
  | true =>
      have text : content = ownerText process now name := complete rfl
      subst text
      have marked : OwnsMarked self process name id _ after :=
        ⟨owns, marker, now, Function.update_self _ _ _, epoch, stored⟩
      refine robust_quiet lasting_ownsMarked marked rfl ?_
      intro _ synced afterSync _ _ _ _ marked
      refine robust_quiet lasting_ownsMarked marked rfl ?_
      intro _ closed afterClose _ _ _ _ marked
      split
      · exact robust_done lasting_markerTried
          ⟨_, only, marked.owns, fun _ => marked⟩
      · exact giveUpMarker_robust permits only marked.owns

/-- What `rymga_platform_make_temp_directory` leaves behind. -/
def TempTried (process : Process) (made : Option Name) (world : World) :
    Prop :=
  world.alive process = true ∧ ∀ name, made = some name →
    ∃ pid id entries, Markerlike entries ∧
      OwnsMarked process pid name id entries world

theorem tempTried_none (alive : before.alive self = true) :
    TempTried self none before :=
  ⟨alive, by rintro name ⟨⟩⟩

theorem lasting_tempTried {made : Option Name} :
    Lasting tidy condition self (TempTried self made) where
  stable := by
    rintro first second settled settledAfter relied ⟨alive, tried⟩
    refine ⟨lasting_alive.stable first second settled settledAfter relied
      alive, fun name same => ?_⟩
    obtain ⟨pid, id, entries, only, marked⟩ := tried name same
    exact ⟨pid, id, entries, only, lasting_ownsMarked.stable first second
      settled settledAfter relied marked⟩
  rests := by
    rintro first second rested ⟨alive, tried⟩
    refine ⟨by rw [rested.alive, alive], fun name same => ?_⟩
    obtain ⟨pid, id, entries, only, marked⟩ := tried name same
    exact ⟨pid, id, entries, only, marked.rests rested⟩

/-- A directory that could not be marked is removed again. -/
theorem giveUpTemp_robust (owns : Owns self pid name id entries before) :
    (owning tidy condition).Robust self (TempTried self)
      (.call (.rmdir name) fun _ => .done none) before := by
  refine robust_call lasting_owns owns ?_
  intro middle answer after settled owns acted _
  obtain ⟨keeps, living, -⟩ := keeps_rmdir settled owns acted
  exact ⟨keeps, robust_done lasting_tempTried (tempTried_none living)⟩

theorem makeTempDirectory_robust {runtimeDirectory : Bytes}
    (permits : Permits tidy condition)
    (alive : before.alive self = true) :
    (owning tidy condition).Robust self (TempTried self)
      (makeTempDirectory runtimeDirectory) before := by
  simp only [makeTempDirectory, Program.perform_bind]
  split
  · exact robust_done lasting_tempTried (tempTried_none alive)
  refine robust_call lasting_alive alive ?_
  intro middle answer made settled alive acted met
  obtain ⟨keeps, owned⟩ := keeps_mkdtemp permits settled acted met
  refine ⟨keeps, ?_⟩
  cases answer with
  | none =>
      have living : made.alive self = true := by
        rw [(World.exec_frame acted.2.1).1, alive]
      exact robust_done lasting_tempTried (tempTried_none living)
  | some name =>
      have owns := owned name rfl
      refine robust_quiet lasting_owns owns rfl ?_
      intro _ changed ready _ _ _ _ owns
      cases changed with
      | false => exact giveUpTemp_robust owns
      | true =>
          refine Discipline.Robust.bind (createMarker_robust permits owns) ?_
          rintro ok after ⟨entries, only, owns, marked⟩
          cases ok with
          | false => exact giveUpTemp_robust owns
          | true =>
              refine robust_done lasting_tempTried ⟨owns.alive, ?_⟩
              rintro _ ⟨⟩
              exact ⟨_, _, entries, only, marked rfl⟩

variable {platform : Platform} {runtimeDirectory : Bytes}

/-- `rymga_platform_remove_file` in a directory of the process. -/
theorem Platform.removeFile_robust {file : Name}
    (permits : Permits tidy condition)
    (last : tidy → file = ownerMarker → ∀ other, other ≠ ownerMarker →
      entries other = none)
    (owns : Owns self pid name id entries before) :
    (owning tidy condition).Robust self
      (fun _ world => ∃ left, Owns self pid name id left world ∧
        Unlinked (tidy ∧
          platform.reachesFile runtimeDirectory name file = true) file entries
          left)
      (platform.removeFile runtimeDirectory name file) before := by
  have lasting : Lasting tidy condition self fun world => ∃ left,
      Owns self pid name id left world ∧ Unlinked (tidy ∧
        platform.reachesFile runtimeDirectory name file = true) file entries
        left :=
    .exists fun left => lasting_owns.and (.const _)
  rw [Platform.removeFile]
  split
  · refine robust_call lasting_owns owns ?_
    intro middle answer after settled owns acted met
    obtain ⟨keeps, left, owns, unlinked⟩ := keeps_unlink permits settled owns
      acted met last
    exact ⟨keeps, robust_done lasting ⟨left, owns, unlinked.others,
      unlinked.fewer, fun tidied => unlinked.gone tidied.1⟩⟩
  · rename_i unreached
    exact robust_done lasting ⟨entries, owns, fun _ _ => rfl,
      fun _ found => found, fun tidied => absurd tidied.2 unreached⟩

/-- `rymga_platform_remove_directory`, once nothing but the marker is left. -/
theorem Platform.removeDirectory_robust (permits : Permits tidy condition)
    (only : tidy → Markerlike entries)
    (owns : Owns self pid name id entries before) :
    (owning tidy condition).Robust self
      (fun _ world => world.alive self = true)
      (platform.removeDirectory runtimeDirectory name) before := by
  have remove : ∀ entries world, Owns self pid name id entries world →
      (owning tidy condition).Robust self
        (fun _ world => world.alive self = true)
        (if platform.reaches (slashed runtimeDirectory name) then do
          let _ ← sys (.rmdir name)
          return ()
        else return ()) world := by
    intro entries world owns
    split
    · refine robust_call lasting_owns owns ?_
      intro middle answer after settled owns acted _
      obtain ⟨keeps, living, -⟩ := keeps_rmdir settled owns acted
      exact ⟨keeps, robust_done lasting_alive living⟩
    · exact robust_done lasting_alive owns.alive
  simp only [Platform.removeDirectory]
  split
  · refine Discipline.Robust.bind (Platform.removeFile_robust permits
      (fun clean _ => (only clean).last) owns) ?_
    rintro _ after ⟨left, owns, -⟩
    exact remove left after owns
  · exact remove entries before owns

/-- With something else in the directory it stays. -/
theorem Platform.removeOccupied_robust {file : Name}
    (permits : Permits tidy condition) (untidy : ¬tidy)
    (other : file ≠ ownerMarker) (present : entries file ≠ none)
    (owns : Owns self pid name id entries before) :
    (owning tidy condition).Robust self
      (fun _ world => ∃ left, Owns self pid name id left world ∧
        Unlinked tidy ownerMarker entries left)
      (platform.removeDirectory runtimeDirectory name) before := by
  have lasting : Lasting tidy condition self fun world => ∃ left,
      Owns self pid name id left world ∧
        Unlinked tidy ownerMarker entries left :=
    .exists fun left => lasting_owns.and (.const _)
  have remove : ∀ left world, Owns self pid name id left world →
      Unlinked tidy ownerMarker entries left →
      (owning tidy condition).Robust self
        (fun _ world => ∃ left, Owns self pid name id left world ∧
          Unlinked tidy ownerMarker entries left)
        (if platform.reaches (slashed runtimeDirectory name) then do
          let _ ← sys (.rmdir name)
          return ()
        else return ()) world := by
    intro left world owns unlinked
    split
    · refine robust_call lasting_owns owns ?_
      intro middle answer after settled owns acted _
      obtain ⟨keeps, -, stays⟩ := keeps_rmdir settled owns acted
      have occupied : ∃ file, left file ≠ none :=
        ⟨file, by rw [unlinked.others file other]; exact present⟩
      exact ⟨keeps, robust_done lasting ⟨left, stays occupied, unlinked⟩⟩
    · exact robust_done lasting ⟨left, owns, unlinked⟩
  simp only [Platform.removeDirectory]
  split
  · refine Discipline.Robust.bind (Platform.removeFile_robust permits
      (fun clean => absurd clean untidy) owns) ?_
    rintro _ after ⟨left, owns, unlinked⟩
    exact remove left after owns ⟨unlinked.others, unlinked.fewer,
      fun clean => absurd clean untidy⟩
  · exact remove entries before owns ⟨fun _ _ => rfl, fun _ found => found,
      fun clean => absurd clean untidy⟩

/-- What `rymga_platform_rename` leaves behind. -/
def Renamed (reached : Prop) (process : Process) (pid : Nat) (name : Name)
    (id : Nat) (entries : Name → Option FileRef) (source target : Name) :
    Bool → World → Prop
  | false, world => Owns process pid name id entries world
  | true, world => reached ∧ ∃ ref, Owns process pid name id
      (Function.update (Function.update entries source none) target (some ref))
      world

theorem lasting_renamed {reached : Prop} {source target : Name}
    {renamed : Bool} :
    Lasting tidy condition self
      (Renamed reached self pid name id entries source target renamed) := by
  cases renamed with
  | false => exact lasting_owns
  | true => exact (Lasting.const _).and (.exists fun _ => lasting_owns)

theorem Platform.rename_robust {source target : Name}
    (named : artifactName target) (fromOther : source ≠ ownerMarker)
    (toOther : target ≠ ownerMarker)
    (owns : Owns self pid name id entries before) :
    (owning tidy condition).Robust self
      (Renamed (platform.reachesFile runtimeDirectory name target = true) self
        pid name id entries source target)
      (platform.rename runtimeDirectory name source target) before := by
  rw [Platform.rename]
  split
  · rename_i reaches
    refine robust_call lasting_owns owns ?_
    intro middle renamed after settled owns acted _
    obtain ⟨keeps, outcome⟩ := keeps_rename settled owns named fromOther
      toOther acted
    refine ⟨keeps, robust_done lasting_renamed ?_⟩
    rcases outcome with ⟨rfl, rested⟩ | ⟨ref, rfl, -, owns⟩
    · exact owns.rests rested
    · exact ⟨((Bool.and_eq_true _ _).mp reaches).2, ref, owns⟩
  · exact robust_done lasting_renamed owns

/-- What `rymga_platform_create_file` leaves behind for the partial file. -/
def PartTried (reached : Prop) (process : Process) (pid : Nat) (name : Name)
    (id : Nat) (entries : Name → Option FileRef) :
    OpenResult → World → Prop
  | .opened file, world => reached ∧
      OwnsMarked process pid name id
        (Function.update entries artifactPart (some file)) world ∧
      Stored process (.inside id artifactPart) file [] world
  | .occupied, world | .failed, world =>
      Owns process pid name id entries world

theorem lasting_partTried {reached : Prop} {answer : OpenResult} :
    Lasting tidy condition self
      (PartTried reached self pid name id entries answer) := by
  cases answer with
  | opened file =>
      exact (Lasting.const _).and (lasting_ownsMarked.and lasting_stored)
  | occupied => exact lasting_owns
  | failed => exact lasting_owns

theorem Platform.createPart_robust (only : Markerlike entries)
    (marked : OwnsMarked self pid name id entries before) :
    (owning tidy condition).Robust self
      (PartTried
        (platform.reachesFile runtimeDirectory name artifactPart = true) self
        pid name id entries)
      (platform.createFile runtimeDirectory name artifactPart) before := by
  rw [Platform.createFile]
  split
  · rename_i reaches
    refine robust_call lasting_ownsMarked marked ?_
    intro middle answer opened settled marked acted _
    obtain ⟨keeps, outcome⟩ := keeps_openExcl settled marked.owns
      (Or.inr (Or.inl rfl)) (fun _ _ => marked.sealed settled)
      (fun _ => only) acted
    refine ⟨keeps, robust_done lasting_partTried ?_⟩
    rcases outcome with ⟨failed, rested⟩ | ⟨file, rfl, owns, stored, others⟩
    · have still := marked.owns.rests rested
      cases answer with
      | opened ref => exact absurd rfl (failed ref)
      | occupied => exact still
      | failed => exact still
    · obtain ⟨-, marker, created, linked, epoch, text⟩ := marked
      refine ⟨reaches, ⟨owns, marker, created, ?_, epoch, others _ _ _ text⟩,
        stored⟩
      rw [Function.update_of_ne (by decide), linked]
  · exact robust_done lasting_partTried marked.owns

/-- The process is receiving the artifact. -/
def Receives (process : Process) (pid : Nat) (name : Name) (id : Nat)
    (entries : Name → Option FileRef) (file : FileRef) (world : World) :
    Prop :=
  OwnsMarked process pid name id entries world ∧ ∃ content,
    Stored process (.inside id artifactPart) file content world

variable {file : FileRef}

theorem lasting_receives :
    Lasting tidy condition self (Receives self pid name id entries file) :=
  lasting_ownsMarked.and (.exists fun _ => lasting_stored)

private theorem writeArtifact_robust {bytes : Bytes}
    (receives : Receives self pid name id entries file before) :
    (owning tidy condition).Robust self
      (fun _ => Receives self pid name id entries file)
      (writeAll file bytes) before := by
  obtain ⟨marked, start, stored⟩ := receives
  refine Discipline.Robust.mono (writeAll_robust lasting_ownsMarked ?_ marked
    stored) ?_
  · intro middle written rest answer after settled marked stored _ acted
    refine (keeps_write settled stored acted ?_).imp_right ?_
    · intro other count same
      exact absurd (Slot.inside.inj same).2 (by decide)
    · rintro ⟨stored, kept, others⟩
      obtain ⟨owns, marker, created, linked, epoch, text⟩ := marked
      refine ⟨⟨kept _ _ _ _ owns, marker, created, linked, epoch,
        others _ _ _ ?_ text⟩, stored⟩
      rintro rfl
      have origin := text.origin.symm.trans
        ‹Stored self (.inside id artifactPart) marker written middle›.origin
      exact absurd (Slot.inside.inj (Option.some.inj origin)).2 (by decide)
  · rintro _ after ⟨marked, content, stored, -⟩
    exact ⟨marked, content, stored⟩

private theorem receiveFile_robust {d : Download} {chunk : Bytes}
    (receives : Receives self pid name id entries file before) :
    (owning tidy condition).Robust self
      (fun _ => Receives self pid name id entries file)
      (receiveFile file d chunk 1 chunk.length) before := by
  rw [receiveFile]
  split
  · exact robust_done lasting_receives receives
  split
  · exact robust_done lasting_receives receives
  refine Discipline.Robust.bind (writeArtifact_robust receives) ?_
  intro written after receives
  split
  · exact robust_done lasting_receives receives
  · exact robust_done lasting_receives receives

private theorem deliver_robust {d : Download} {chunks : List Bytes}
    (receives : Receives self pid name id entries file before) :
    (owning tidy condition).Robust self
      (fun _ => Receives self pid name id entries file)
      (deliver (fun d chunk => receiveFile file d chunk 1 chunk.length) d
        chunks) before := by
  induction chunks generalizing d before with
  | nil => exact robust_done lasting_receives receives
  | cons chunk chunks ih =>
      rw [deliver]
      refine Discipline.Robust.bind (receiveFile_robust receives) ?_
      rintro ⟨taken, next⟩ after receives
      dsimp only
      split
      · exact ih receives
      · exact robust_done lasting_receives receives

/-- Nothing else is in the directory than the marker and a file `file`. -/
def MarkerAnd (file : Name) (entries : Name → Option FileRef) : Prop :=
  ∀ entry ref, entries entry = some ref →
    entry = ownerMarker ∨ entry = file

/-- What the part of `download_artifact` before its cleanup label leaves
behind; an artifact is only under a name the system can be asked about. -/
def FetchTried (reached : Prop) (process : Process) (pid : Nat) (name : Name)
    (id : Nat) (m : Manifest) (fetched : Fetched) (world : World) : Prop :=
  ∃ left, Owns process pid name id left world ∧
    (fetched.result = .ok →
      fetched.artifact = some ⟨some name, some (name, m.filename)⟩ ∧
        reached ∧ MarkerAnd m.filename left) ∧
    (fetched.result ≠ .ok → fetched.artifact = none ∧
      ∀ entry ref, left entry = some ref → entry = ownerMarker ∨
        entry = artifactPart ∨
          fetched.finalCreated = true ∧ reached ∧ entry = m.filename)

theorem lasting_fetchTried {reached : Prop} {m : Manifest}
    {fetched : Fetched} :
    Lasting tidy condition self
      (FetchTried reached self pid name id m fetched) :=
  .exists fun _ => lasting_owns.and ((Lasting.const _).and (.const _))

variable {reached : Prop} {m : Manifest}

private theorem fetchTried_part {result : Result}
    (only : MarkerAnd artifactPart entries) (failed : result ≠ .ok)
    (owns : Owns self pid name id entries before) :
    (owning tidy condition).Robust self
      (FetchTried reached self pid name id m)
      (.done ⟨result, false, none⟩) before := by
  refine robust_done lasting_fetchTried
    ⟨entries, owns, fun ok => absurd ok failed, fun _ => ⟨rfl, ?_⟩⟩
  intro entry ref found
  exact (only entry ref found).imp_right Or.inl

private theorem fetchTried_final {result : Result} (reaches : reached)
    (only : MarkerAnd m.filename entries) (failed : result ≠ .ok)
    (owns : Owns self pid name id entries before) :
    (owning tidy condition).Robust self
      (FetchTried reached self pid name id m)
      (.done ⟨result, true, none⟩) before := by
  refine robust_done lasting_fetchTried
    ⟨entries, owns, fun ok => absurd ok failed, fun _ => ⟨rfl, ?_⟩⟩
  intro entry ref found
  exact (only entry ref found).imp_right fun same =>
    Or.inr ⟨rfl, reaches, same⟩

theorem MarkerAnd.unlinked {file removed : Name}
    {left : Name → Option FileRef} (only : MarkerAnd file entries)
    (unlinked : Unlinked tidy removed entries left) :
    MarkerAnd file left := by
  intro entry ref found
  by_cases same : entry = removed
  · subst same
    exact only entry ref (unlinked.fewer ref found)
  · rw [unlinked.others entry same] at found
    exact only entry ref found

/-- `rymga_loader_artifact_release` of a handle whose paths were not both
duplicated. -/
private theorem releaseIncomplete_robust
    {directoryCopied pathCopied : Bool} (permits : Permits tidy condition)
    (incomplete : (directoryCopied && pathCopied) = false)
    (copied : tidy → directoryCopied = true → pathCopied = true)
    (visible : m.filename ≠ ownerMarker)
    (present : entries m.filename ≠ none)
    (only : MarkerAnd m.filename entries)
    (owns : Owns self pid name id entries before) :
    (owning tidy condition).Robust self
      (fun _ world => ∃ left, Owns self pid name id left world ∧
        MarkerAnd m.filename left)
      (platform.artifactRelease runtimeDirectory
        ⟨if directoryCopied then some name else none,
          if pathCopied then some (name, m.filename) else none⟩) before := by
  have lasting : Lasting tidy condition self fun world => ∃ left,
      Owns self pid name id left world ∧ MarkerAnd m.filename left :=
    .exists fun left => lasting_owns.and (.const _)
  cases directoryCopied with
  | false =>
      cases pathCopied with
      | false => exact robust_done lasting ⟨entries, owns, only⟩
      | true =>
          refine Discipline.Robust.bind (Platform.removeFile_robust permits
            (fun _ same => absurd same visible) owns) ?_
          rintro _ after ⟨left, owns, unlinked⟩
          exact robust_done lasting ⟨left, owns, only.unlinked unlinked⟩
  | true =>
      cases pathCopied with
      | false =>
          have untidy : ¬tidy := fun clean => by cases copied clean rfl
          refine Discipline.Robust.mono (Platform.removeOccupied_robust permits
            untidy visible present owns) ?_
          rintro _ after ⟨left, owns, unlinked⟩
          exact ⟨left, owns, only.unlinked unlinked⟩
      | true => cases incomplete

/-- The end of `download_artifact`, once the partial file is verified. -/
private theorem publish_robust
    (permits : Permits tidy condition) (named : artifactName m.filename)
    (visible : m.filename ≠ ownerMarker)
    (only : MarkerAnd artifactPart entries)
    (owns : Owns self pid name id entries before) :
    (owning tidy condition).Robust self
      (FetchTried (platform.reachesFile runtimeDirectory name m.filename = true)
        self pid name id m)
      (do
        if !(← platform.rename runtimeDirectory name artifactPart
            m.filename) then
          return ⟨.ioError, false, none⟩
        if !(← sys .allocate) then return ⟨.outOfMemory, true, none⟩
        let (directoryCopied, pathCopied) ← sys .duplicatePaths
        let artifact : Artifact :=
          { directory := if directoryCopied then some name else none,
            path := if pathCopied then some (name, m.filename) else none }
        if !(directoryCopied && pathCopied) then
          platform.artifactRelease runtimeDirectory artifact
          return ⟨.outOfMemory, true, none⟩
        return ⟨.ok, true, some artifact⟩) before := by
  refine Discipline.Robust.bind (Platform.rename_robust named (by decide)
    visible owns) ?_
  rintro renamed after outcome
  cases renamed with
  | false => exact fetchTried_part only (by decide) outcome
  | true =>
  obtain ⟨reaches, ref, owns⟩ := outcome
  simp only [Program.perform_bind]
  have final : MarkerAnd m.filename (Function.update (Function.update entries
      artifactPart none) m.filename (some ref)) := by
    intro entry other found
    by_cases same : entry = m.filename
    · exact Or.inr same
    · rw [Function.update_of_ne same] at found
      by_cases part : entry = artifactPart
      · subst part
        rw [Function.update_self] at found
        cases found
      · rw [Function.update_of_ne part] at found
        exact Or.inl ((only entry other found).resolve_right part)
  refine robust_quiet lasting_owns owns rfl ?_
  intro _ allocated after _ _ _ _ owns
  cases allocated with
  | false => exact fetchTried_final reaches final (by decide) owns
  | true =>
      refine robust_quiet lasting_owns owns rfl ?_
      rintro middle ⟨directoryCopied, pathCopied⟩ after _ _ _ met owns
      dsimp only
      split
      · rename_i incomplete
        refine Discipline.Robust.bind (releaseIncomplete_robust permits
          ((Bool.not_eq_true' _).mp incomplete) ?_ visible ?_ final owns) ?_
        · exact fun clean => ((permits _ _ _ _ met).2 clean).2
        · rw [Function.update_self]
          exact Option.some_ne_none ref
        · rintro _ after ⟨left, owns, only⟩
          exact fetchTried_final reaches only (by decide) owns
      · rename_i complete
        have both : directoryCopied = true ∧ pathCopied = true := by
          simpa using complete
        obtain ⟨rfl, rfl⟩ := both
        exact robust_done lasting_fetchTried
          ⟨_, owns, fun _ => ⟨rfl, reaches, final⟩,
            fun failed => absurd rfl failed⟩

theorem Platform.fetchArtifact_robust {sodium : Sodium} {q : Request}
    {encodedManifest : Bytes} {network : Exchange → Reply}
    (permits : Permits tidy condition) (named : artifactName m.filename)
    (visible : m.filename ≠ ownerMarker)
    (only : MarkerAnd artifactPart entries)
    (receives : Receives self pid name id entries file before) :
    (owning tidy condition).Robust self
      (FetchTried
        (platform.reachesFile q.runtimeDirectory name m.filename = true) self
        pid name id m)
      (platform.fetchArtifact sodium q m encodedManifest network name file)
      before := by
  have guarded : ∀ {call : Call} {refused : Answer call → Bool}
      {result : Result} {rest : Os Fetched} {world : World},
      call.changesDisk = false → result ≠ .ok →
      Receives self pid name id entries file world →
      (∀ after, Receives self pid name id entries file after →
        (owning tidy condition).Robust self
          (FetchTried (platform.reachesFile q.runtimeDirectory name
            m.filename = true) self pid name id m) rest after) →
        (owning tidy condition).Robust self
          (FetchTried (platform.reachesFile q.runtimeDirectory name
            m.filename = true) self pid name id m)
          (.call call fun answer => if refused answer then
            pure ⟨result, false, none⟩ else rest) world := by
    intro call refused result rest world quiet failed receives next
    refine robust_quiet lasting_receives receives quiet ?_
    intro _ answer after _ _ _ _ receives
    split
    · exact fetchTried_part only failed receives.1.owns
    · exact next after receives
  simp only [Platform.fetchArtifact, Program.perform_bind]
  refine guarded rfl (by decide) receives fun world receives => ?_
  refine guarded rfl (by decide) receives fun world receives => ?_
  refine guarded rfl (by decide) receives fun world receives => ?_
  refine guarded rfl (by decide) receives fun world receives => ?_
  refine Discipline.Robust.bind (deliver_robust receives) ?_
  rintro ⟨delivered, d⟩ world receives
  dsimp only
  split
  · exact fetchTried_part only (by decide) receives.1.owns
  refine robust_quiet lasting_receives receives rfl ?_
  intro _ synced world _ _ _ _ receives
  refine robust_quiet lasting_receives receives rfl ?_
  intro _ closed world _ _ _ _ receives
  split
  · exact fetchTried_part only (by decide) receives.1.owns
  · exact publish_robust permits named visible only receives.1.owns

/-- What a job returns is published in a directory of the process. -/
def Collects (process : Process) (returned : Option Artifact)
    (world : World) : Prop :=
  world.alive process = true ∧ ∀ artifact, returned = some artifact →
    ∃ name file, artifact = ⟨some name, some (name, file)⟩ ∧
      ∃ pid id entries, MarkerAnd file entries ∧
        Owns process pid name id entries world

theorem collects_none (alive : before.alive self = true) :
    Collects self none before :=
  ⟨alive, by rintro artifact ⟨⟩⟩

theorem lasting_collects {returned : Option Artifact} :
    Lasting tidy condition self (Collects self returned) where
  stable := by
    rintro first second settled settledAfter relied ⟨alive, collects⟩
    refine ⟨lasting_alive.stable first second settled settledAfter relied
      alive, fun artifact same => ?_⟩
    obtain ⟨name, file, shape, pid, id, entries, only, owns⟩ :=
      collects artifact same
    exact ⟨name, file, shape, pid, id, entries, only,
      lasting_owns.stable first second settled settledAfter relied owns⟩
  rests := by
    rintro first second rested ⟨alive, collects⟩
    refine ⟨by rw [rested.alive, alive], fun artifact same => ?_⟩
    obtain ⟨name, file, shape, pid, id, entries, only, owns⟩ :=
      collects artifact same
    exact ⟨name, file, shape, pid, id, entries, only, owns.rests rested⟩

/-- Every file of the handle is under a name the system can be asked about. -/
def Platform.ReachesArtifact (platform : Platform) (runtimeDirectory : Bytes)
    (artifact : Artifact) : Prop :=
  ∀ name file, artifact.path = some (name, file) →
    platform.reachesFile runtimeDirectory name file = true

/-- What `download_artifact` returns is published under such a name. -/
def Platform.Delivers (platform : Platform) (runtimeDirectory : Bytes)
    (process : Process) (returned : Result × Option Artifact)
    (world : World) : Prop :=
  Collects process returned.2 world ∧ ∀ artifact,
    returned.2 = some artifact →
      platform.ReachesArtifact runtimeDirectory artifact

private theorem delivers_none {result : Result}
    (alive : before.alive self = true) :
    platform.Delivers runtimeDirectory self (result, none) before :=
  ⟨collects_none alive, by rintro artifact ⟨⟩⟩

theorem lasting_delivers {returned : Result × Option Artifact} :
    Lasting tidy condition self
      (platform.Delivers runtimeDirectory self returned) :=
  lasting_collects.and (.const _)

/-- The cleanup label of `download_artifact` after a failure. -/
private theorem discard_robust {result : Result} {final : Bool}
    (permits : Permits tidy condition)
    (part : platform.reachesFile runtimeDirectory name artifactPart = true)
    (left : ∀ entry ref, entries entry = some ref → entry = ownerMarker ∨
      entry = artifactPart ∨ final = true ∧
        platform.reachesFile runtimeDirectory name m.filename = true ∧
        entry = m.filename)
    (visible : m.filename ≠ ownerMarker)
    (owns : Owns self pid name id entries before) :
    (owning tidy condition).Robust self
      (platform.Delivers runtimeDirectory self)
      (do
        let _ ← platform.removeFile runtimeDirectory name artifactPart
        if final then
          let _ ← platform.removeFile runtimeDirectory name m.filename
        platform.removeDirectory runtimeDirectory name
        return (result, none)) before := by
  have remove : ∀ entries world, (tidy → Markerlike entries) →
      Owns self pid name id entries world →
      (owning tidy condition).Robust self
        (platform.Delivers runtimeDirectory self)
        (do
          platform.removeDirectory runtimeDirectory name
          return (result, (none : Option Artifact))) world := by
    intro entries world only owns
    refine Discipline.Robust.bind (Platform.removeDirectory_robust permits
      only owns) ?_
    intro _ after alive
    exact robust_done lasting_delivers (delivers_none alive)
  refine Discipline.Robust.bind (Platform.removeFile_robust permits
    (fun _ same => absurd same (by decide)) owns) ?_
  rintro _ after ⟨rest, owns, unlinked⟩
  have fewer : tidy → ∀ entry ref, rest entry = some ref →
      entry = ownerMarker ∨ final = true ∧
        platform.reachesFile runtimeDirectory name m.filename = true ∧
        entry = m.filename := by
    intro clean entry ref found
    by_cases same : entry = artifactPart
    · subst same
      rw [unlinked.gone ⟨clean, part⟩ (by decide)] at found
      cases found
    · rw [unlinked.others entry same] at found
      exact (left entry ref found).imp_right fun other =>
        other.resolve_left same
  cases final with
  | false =>
      refine remove rest after ?_ owns
      intro clean entry ref found
      refine (fewer clean entry ref found).resolve_right ?_
      rintro ⟨⟨⟩, -⟩
  | true =>
      rw [if_pos rfl]
      refine Discipline.Robust.bind (Platform.removeFile_robust permits
        (fun _ same => absurd same visible) owns) ?_
      rintro _ final ⟨last, owns, gone⟩
      refine remove last final ?_ owns
      intro clean entry ref found
      by_cases same : entry = m.filename
      · subst same
        refine (fewer clean _ ref (gone.fewer ref found)).resolve_right ?_
        rintro ⟨-, reaches, -⟩
        rw [gone.gone ⟨clean, reaches⟩ visible] at found
        cases found
      · rw [gone.others entry same] at found
        exact (fewer clean entry ref found).resolve_right fun other =>
          same other.2.2

/-- `rymga_platform_make_temp_directory` leaves a marked directory of the
process behind. -/
def Platform.MakesTemps (platform : Platform) (tidy : Prop)
    (condition : Process → (call : Call) → World → Answer call → Prop)
    (self : Process) : Prop :=
  ∀ runtimeDirectory before, before.alive self = true →
    (owning tidy condition).Robust self (TempTried self)
      (platform.makeTempDirectory runtimeDirectory) before

theorem Platform.downloadArtifact_robust {sodium : Sodium} {q : Request}
    {encodedManifest : Bytes} {network : Exchange → Reply}
    (permits : Permits tidy condition)
    (makes : platform.MakesTemps tidy condition self)
    (parsed : parseManifest encodedManifest = some m)
    (alive : before.alive self = true) :
    (owning tidy condition).Robust self
      (platform.Delivers q.runtimeDirectory self)
      (platform.downloadArtifact sodium q m encodedManifest network)
      before := by
  have markable := markableName_of_parsed parsed
  have named : artifactName m.filename :=
    Or.inr (Or.inr ⟨markable.jar, markable.short, text_of_parsed parsed⟩)
  have visible : m.filename ≠ ownerMarker := filename_ne_of_parsed parsed rfl
  have refuse : ∀ name pid id entries world, Markerlike entries →
      Owns self pid name id entries world →
      (owning tidy condition).Robust self
        (platform.Delivers q.runtimeDirectory self)
        (do
          platform.removeDirectory q.runtimeDirectory name
          return (Result.ioError, (none : Option Artifact))) world := by
    intro name pid id entries world only owns
    refine Discipline.Robust.bind (Platform.removeDirectory_robust permits
      (fun _ => only) owns) ?_
    intro _ after alive
    exact robust_done lasting_delivers (delivers_none alive)
  simp only [Platform.downloadArtifact, Program.perform_bind]
  refine robust_quiet lasting_alive alive rfl ?_
  intro _ ok checked _ _ _ _ alive
  cases ok with
  | false => exact robust_done lasting_delivers (delivers_none alive)
  | true =>
      refine Discipline.Robust.bind (makes _ checked alive) ?_
      rintro made world ⟨alive, tried⟩
      cases made with
      | none => exact robust_done lasting_delivers (delivers_none alive)
      | some name =>
          obtain ⟨pid, id, entries, only, marked⟩ := tried name rfl
          dsimp only
          split
          · exact refuse name pid id entries world only marked.owns
          refine Discipline.Robust.bind
            (Platform.createPart_robust only marked) ?_
          rintro answer opened tried
          cases answer with
          | occupied => exact refuse name pid id entries opened only tried
          | failed => exact refuse name pid id entries opened only tried
          | opened file =>
              obtain ⟨part, marked, stored⟩ := tried
              have pair : MarkerAnd artifactPart
                  (Function.update entries artifactPart (some file)) := by
                intro entry ref found
                by_cases same : entry = artifactPart
                · exact Or.inr same
                · rw [Function.update_of_ne same] at found
                  exact Or.inl (only entry ref found)
              refine Discipline.Robust.bind (Platform.fetchArtifact_robust
                permits named visible pair ⟨marked, [], stored⟩) ?_
              rintro ⟨result, final, artifact⟩ after
                ⟨left, owns, published, failed⟩
              dsimp only
              by_cases ok : result = .ok
              · subst ok
                obtain ⟨returned, reaches, pair⟩ := published rfl
                dsimp only at returned
                subst returned
                rw [if_neg (not_not.mpr rfl)]
                refine robust_done lasting_delivers ⟨⟨owns.alive, ?_⟩, ?_⟩
                · rintro _ ⟨⟩
                  exact ⟨name, m.filename, rfl, pid, id, left, pair, owns⟩
                · rintro _ ⟨⟩ _ _ ⟨⟩
                  exact reaches
              · obtain ⟨returned, leftover⟩ := failed ok
                dsimp only at returned leftover
                subst returned
                rw [if_pos ok]
                exact discard_robust permits part leftover visible owns

/-- `rymga_loader_artifact_release` of a published artifact. -/
theorem Platform.artifactRelease_robust {released : Name}
    (permits : Permits tidy condition)
    (reaches :
      platform.reachesFile runtimeDirectory name released = true)
    (only : MarkerAnd released entries)
    (owns : Owns self pid name id entries before) :
    (owning tidy condition).Robust self
      (fun _ world => world.alive self = true)
      (platform.artifactRelease runtimeDirectory
        ⟨some name, some (name, released)⟩) before := by
  have none_of_other : ∀ other, other ≠ ownerMarker → other ≠ released →
      entries other = none := by
    intro other notMarker notReleased
    cases found : entries other with
    | none => rfl
    | some ref =>
        rcases only other ref found with rfl | rfl
        · exact absurd rfl notMarker
        · exact absurd rfl notReleased
  refine Discipline.Robust.bind (Platform.removeFile_robust permits
    (fun _ same other different =>
      none_of_other other different (same ▸ different)) owns) ?_
  rintro _ after ⟨left, owns, unlinked⟩
  refine Platform.removeDirectory_robust permits ?_ owns
  intro clean entry ref found
  by_contra notMarker
  by_cases same : entry = released
  · subst same
    rw [unlinked.gone ⟨clean, reaches⟩ notMarker] at found
    cases found
  · rw [unlinked.others entry same, none_of_other entry notMarker same]
      at found
    cases found

end

end RymgaLoader.Native
