import RymgaLoader.Native.WindowsRuns

/-!
# Owner markers outlive their artifacts

In every run in which every artifact that exists can be deleted, a directory
that contains an artifact contains its valid marker, and a cleanup can reclaim
it once its process is dead and the marker is old enough.
-/

namespace RymgaLoader.Native

open Interleaving

variable {configuration : Configuration Process Call Answer (Option Artifact)
  World}

/-- The directory contains its marker: a private file that names the process
that made it and the time. -/
structure World.Marked (world : World) (name : Name) (id : Nat)
    (owner : Process) (created : Int64) : Prop where
  creator : (world.disk.directories id).creator = some owner
  epoch : 0 ≤ created
  marker : ∃ ref, world.disk.entry (.inside id ownerMarker) = some ref ∧
    world.disk.files ref =
      ⟨ownerText (world.pidOf owner) created name, .privateFile, some owner⟩

section

variable {tidy : Prop} {world : World} {name : Name} {id : Nat}
  {owner : Process} {created : Int64}

/-- In a settled runtime directory an artifact has its marker beside it. -/
theorem World.Settled.marked {file : Name} {ref : FileRef}
    (settled : world.Settled True)
    (linked : world.disk.root.lookup name = some (.directory id))
    (present : world.disk.entry (.inside id file) = some ref)
    (artifact : file = artifactPart ∨ jarName file = true) :
    ∃ owner created, world.Marked name id owner created := by
  have visible : file ≠ ownerMarker := by
    rintro rfl
    rcases artifact with part | jar
    · cases part
    · cases jar
  obtain ⟨marker, found, owner, created, creator, epoch, text⟩ :=
    settled.disk.sealed trivial id file ref present visible
  obtain ⟨_, same, -, named⟩ := settled.disk.linked name _ linked
  cases same
  have belongs := settled.disk.entries id ownerMarker marker found
  refine ⟨owner, created, creator, epoch, marker, found, ?_⟩
  have shape : ∀ file : File, file.content =
      ownerText (world.pidOf owner) created name →
      file.mode = .privateFile → file.creator = some owner →
        file = ⟨ownerText (world.pidOf owner) created name,
          .privateFile, some owner⟩ := by
    rintro ⟨content, mode, maker⟩ rfl rfl rfl
    rfl
  rw [named] at text
  refine shape _ text belongs.mode ?_
  rw [belongs.creator, creator]

/-- The directory was made private, under a name for temporary directories. -/
theorem World.Settled.temporary (settled : world.Settled tidy)
    (linked : world.disk.root.lookup name = some (.directory id)) :
    directoryName name ∧
      (world.disk.directories id).mode = .privateDirectory := by
  obtain ⟨_, same, older, named⟩ := settled.disk.linked name _ linked
  cases same
  obtain ⟨owner, -, -, temp, mode⟩ := settled.disk.owner id older
  rw [named] at temp
  exact ⟨temp, mode⟩

theorem World.Settled.openDirectory (settled : world.Settled tidy)
    (linked : world.disk.root.lookup name = some (.directory id)) :
    world.disk.openDirectory name = some id := by
  refine Disk.openDirectory_eq_some_iff.mpr
    ⟨Disk.subdirectory_eq_some_iff.mpr linked, ?_⟩
  rw [(settled.temporary linked).2]
  rfl

/-- The marker tells a process and a time after the epoch. -/
theorem World.Marked.bounds (settled : world.Settled tidy)
    (linked : world.disk.root.lookup name = some (.directory id))
    (marked : world.Marked name id owner created) :
    0 < world.pidOf owner ∧ world.pidOf owner < 2 ^ 31 ∧
      0 ≤ created.toInt := by
  obtain ⟨_, same, older, -⟩ := settled.disk.linked name _ linked
  cases same
  obtain ⟨known, born, made, -⟩ := settled.disk.owner id older
  rw [marked.creator] at made
  cases made
  obtain ⟨positive, bounded⟩ := settled.pids owner born
  have limit : intMax = 2147483647 := rfl
  exact ⟨positive, by omega, by
    simpa [Int64.le_iff_toInt_le] using marked.epoch⟩

theorem World.Settled.tame (settled : world.Settled tidy) (id : Nat) :
    world.disk.Tame id := by
  refine ⟨?_, ?_⟩
  · intro entry other found visible
    have belongs := settled.disk.entries id entry other found
    rw [belongs.mode]
    refine ⟨rfl, rfl, rfl, ?_⟩
    rcases belongs.named with marker | part | ⟨jar, -⟩
    · exact absurd marker visible
    · exact Or.inl part
    · exact Or.inr jar
  · intro first second presentFirst presentSecond jarFirst jarSecond
    obtain ⟨one, foundFirst⟩ := Option.isSome_iff_exists.mp presentFirst
    obtain ⟨two, foundSecond⟩ := Option.isSome_iff_exists.mp presentSecond
    refine settled.single id first second one two foundFirst foundSecond ?_ ?_
    · rintro rfl
      cases jarFirst
    · rintro rfl
      cases jarSecond

theorem World.Settled.ordinary (settled : world.Settled tidy) :
    world.disk.Ordinary where
  distinct first second id one two := by
    obtain ⟨_, same, -, named⟩ := settled.disk.linked first _
      (Disk.subdirectory_eq_some_iff.mp one)
    cases same
    obtain ⟨_, same, -, other⟩ := settled.disk.linked second _
      (Disk.subdirectory_eq_some_iff.mp two)
    cases same
    exact named.symm.trans other
  names id name ref found := by
    have named := (settled.disk.entries id name ref found).named
    obtain ⟨dot, dots⟩ := artifactName_plain named
    refine ⟨?_, by simp [dotName, dot, dots]⟩
    rcases named with rfl | rfl | ⟨-, short, -⟩
    · decide
    · decide
    · exact short

/-- A marked directory is one a cleanup reclaims, once its process is gone and
the marker is old enough. -/
theorem World.Marked.reclaimable (settled : world.Settled tidy)
    (linked : world.disk.root.lookup name = some (.directory id))
    (marked : world.Marked name id owner created)
    {killed : Int → KillResult} {now : Int64} {maxAgeSeconds : Int}
    (gone : killed (world.pidOf owner) = .noSuchProcess)
    (past : created ≤ now)
    (old : maxAgeSeconds ≤ now.toInt - created.toInt) :
    world.disk.Reclaimable killed now maxAgeSeconds name := by
  obtain ⟨positive, bounded, nonnegative⟩ := marked.bounds settled linked
  obtain ⟨temp, mode⟩ := settled.temporary linked
  obtain ⟨-, epoch, ref, present, file⟩ := marked
  have limit : intMax = 2147483647 := rfl
  have recorded : ownerRecord name (world.disk.files ref).content =
      some ((world.pidOf owner : Int), created.toInt) := by
    rw [file, ownerRecord, scanOwner_ownerText (by omega) epoch temp]
    exact if_pos ⟨rfl, by omega, by omega, nonnegative⟩
  have accessible : world.disk.Accessible id := by
    refine ⟨by rw [mode]; rfl, by rw [mode]; rfl, fun marker found => ?_⟩
    rw [(settled.disk.entries id ownerMarker marker found).mode]
    rfl
  refine ⟨id, Disk.subdirectory_eq_some_iff.mpr linked, accessible, ⟨?_, ?_,
    ref, _, _, present, ?_, ?_, ?_, ?_, recorded, ?_, old, gone⟩,
    settled.tame id⟩
  · rw [mode]
    rfl
  · rw [mode]
    rfl
  · rw [file]
    rfl
  · rw [file]
    rfl
  · rw [file]
    rfl
  · rw [file]
    exact Nat.le_of_lt_succ (length_ownerText (by omega) epoch temp)
  · exact Int64.le_iff_toInt_le.mp past

end

namespace Windows

/-- Directories are found and listed as they are and the clock reads `now`; the
rest is as `honest` tells. -/
def truthful (ended : Int → Ended) (now : Int64) (call : Call) (world : World)
    (answer : Answer call) : Prop :=
  match call, answer with
  | .openDirectory name, answer => answer = world.disk.openDirectory name
  | .statDirectory id, answer =>
      answer = some (world.disk.directories id).mode
  | .scan (some id), answer => ∃ names, answer = some names ∧
      Lists names (world.disk.names (some id))
  | .fstatat place, answer => answer = world.disk.stat place
  | .time, answer => answer = now
  | call, answer => honest ended call world answer

/-- Every truthful run of the examination accepts the directory, and there is
one. -/
def Accepts (ended : Int → Ended) (now : Int64) (self : Process)
    (examination : Os (Option Name)) (before : World) : Prop :=
  (∃ found after, Program.Runs (alone self (truthful ended now)) examination
    before found after) ∧
  ∀ found after, Program.Runs (alone self (truthful ended now)) examination
    before found after → found.isSome = true

/-- The paths that the examination of a directory writes down fit their
buffers. -/
structure PathsFit (path : Bytes) (name : Name) : Prop where
  directory : wide (slashed path name) = true
  marker : opens (slashed path name) ownerMarker = true
  listing : opens (slashed path name) [0x2A] = true

section

variable {ended : Int → Ended} {now : Int64} {self : Process}
  {before world : World} {tidy : Prop} {name : Name} {id : Nat}
  {owner : Process} {created : Int64} {path : Bytes}

theorem exists_truthful (later : 0 ≤ now) (ready : world.Idle self)
    (call : Call) : ∃ answer after,
      alone self (truthful ended now) call world answer after ∧
        after.Idle self := by
  have quiet (call : Call) (answer : Answer call)
      (unscanned : call.scans = false)
      (possible : ∃ after, world.exec self call answer = some after)
      (told : truthful ended now call world answer) :
      ∃ answer after, alone self (truthful ended now) call world answer
        after ∧ after.Idle self := by
    obtain ⟨after, done⟩ := possible
    exact ⟨answer, after, ⟨done, told⟩, ready.exec done unscanned⟩
  have kept : ∀ change : Standing → Standing,
      (world.withStanding self change).disk = world.disk := fun _ => rfl
  cases call
  case openDirectory name =>
      refine quiet _ (world.disk.openDirectory name) rfl ?_ rfl
      cases found : world.disk.openDirectory name <;>
        simp [World.exec, World.effect, found, kept]
  case statDirectory id =>
      exact quiet _ (some (world.disk.directories id).mode) rfl
        ⟨_, if_pos rfl⟩ rfl
  case fstatat place =>
      refine quiet _ (world.disk.stat place) rfl ?_ rfl
      cases found : world.disk.stat place with
      | none => simp [World.exec, World.effect]
      | some info =>
          cases place <;> simp [World.exec, World.effect, found, kept]
  case time => exact quiet _ now rfl ⟨_, if_pos later⟩ rfl
  case scan directory =>
      cases directory with
      | none =>
          have given : ∃ answer after, alone self (honest ended) (.scan none)
              world answer after ∧ after.Idle self := exists_honest ready _
          exact given
      | some id =>
          refine ⟨some (world.disk.names (some id)), _, ⟨rfl, ?_⟩, ?_⟩
          · exact ⟨_, rfl, fun _ => (·), fun _ member => Or.inl member,
              (world.disk.directories id).entries.keys_nodup⟩
          · simp [World.Idle, World.withStanding]
  all_goals exact @exists_honest self ended world ready _

theorem honest_of_truthful {call : Call} {answer : Answer call}
    (told : truthful ended now call world answer) :
    honest ended call world answer := by
  cases call
  case scan directory => cases directory <;> trivial
  all_goals first
    | exact told
    | trivial

/-- What holds after every honest run holds after every truthful one. -/
theorem wp_of_honest {α : Type} {program : Os α} {post : α → World → Prop}
    (holds : Program.wp (alone self (honest ended)) program post before) :
    Program.wp (alone self (truthful ended now)) program post before :=
  Program.wp_iff_runs.mpr fun value after run =>
    Program.wp_iff_runs.mp holds value after
      (run.mono fun _ _ _ _ told => ⟨told.1, honest_of_truthful told.2⟩)

theorem listedAs_truthful {place : Place} {attributes : Mode → Bool}
    {info : Stat} (found : before.disk.stat place = some info) :
    Program.wp (alone self (truthful ended now)) (listedAs place attributes)
      (fun listed after => after.disk = before.disk ∧
        listed = attributes info.mode) before := by
  simp only [listedAs, Program.perform_bind]
  refine wp_quiet rfl fun answer after told same => ?_
  have answered : answer = some info := Eq.trans told found
  subst answered
  exact ⟨same, rfl⟩

/-- The loop ends as that of `stale_owned_directory` on POSIX does where every
JAR fits the buffer for its name. -/
theorem staleEntries_truthful {jar : Name} {entries : List Name}
    (suits : ∀ entry ∈ entries, examined entry = true →
      Suits before.disk id entry ∧
        (entry = artifactPart ∨ copies entry = true)) :
    Program.wp (alone self (truthful ended now)) (staleEntries id jar entries)
      (fun found _ => found = tameEntries before.disk id jar entries)
      before := by
  induction entries generalizing jar before with
  | nil => exact wp_quiet rfl fun answer after _ same => rfl
  | cons entry entries ih =>
      obtain ⟨looked, rest⟩ := List.forall_mem_cons.mp suits
      rw [staleEntries, tameEntries]
      split
      · exact ih rest
      rename_i visible
      obtain ⟨⟨info, found, regular, owned, fixed, kind⟩, copied⟩ :=
        looked (examined_iff.mpr visible)
      rw [Program.wp_bind]
      refine Program.wp_mono (listedAs_truthful found) ?_
      rintro _ after ⟨same, rfl⟩
      rw [← same] at found rest ⊢
      rw [found]
      simp only [regular, owned, fixed, Bool.not_true, Bool.not_false,
        Bool.and_true, Bool.false_eq_true, if_false]
      by_cases part : entry = artifactPart
      · rw [if_pos part, if_pos part]
        exact ih rest
      have copy : copies entry = true := copied.resolve_left part
      have short : entry.length ≤ 255 := by
        rw [copies, Bool.and_eq_true, decide_eq_true_eq] at copy
        omega
      rw [if_neg part, if_neg part, copy, Bool.not_true, Bool.or_false,
        List.take_of_length_le short]
      split
      · rfl
      · exact ih rest

theorem staleContents_truthful (settled : world.Settled tidy)
    (linked : world.disk.root.lookup name = some (.directory id))
    (unchanged : before.disk = world.disk) :
    Program.wp (alone self (truthful ended now)) (staleContents name)
      (fun found _ => found.isSome = true) before := by
  have opened := settled.openDirectory linked
  rw [← unchanged] at opened
  simp only [staleContents, Program.perform_bind]
  refine wp_quiet rfl fun answer middle told same => ?_
  have answered : answer = some id := Eq.trans told opened
  subst answered
  refine wp_quiet rfl fun answer after told sameAfter => ?_
  obtain ⟨names, rfl, lists⟩ := told
  have disks : after.disk = world.disk :=
    sameAfter.trans (same.trans unchanged)
  rw [same, unchanged] at lists
  refine Program.wp_mono (staleEntries_truthful ?_) ?_
  · rw [disks]
    intro entry member looked
    refine ⟨suits_of_tame settled.ordinary lists (settled.tame id) member
      looked, ?_⟩
    obtain ⟨present, visible⟩ :=
      (examined_listed settled.ordinary lists).mp ⟨member, looked⟩
    obtain ⟨ref, found⟩ := Option.isSome_iff_exists.mp present
    rcases (settled.disk.entries id entry ref found).named with
      marker | part | ⟨-, short, text⟩
    · exact absurd marker visible
    · exact Or.inl part
    · right
      rw [copies, text, Bool.and_true, decide_eq_true_eq]
      omega
  · rintro found last rfl
    rw [disks]
    obtain ⟨jar, found⟩ :=
      tameEntries_of_tame settled.ordinary lists (settled.tame id)
    rw [found]
    rfl

theorem temporaryOk_truthful (settled : before.Settled tidy)
    (linked : before.disk.root.lookup name = some (.directory id))
    (fits : wide (slashed path name) = true) :
    Program.wp (alone self (truthful ended now))
      (temporaryOk (slashed path name) name)
      (fun ok after => ok = true ∧ after.disk = before.disk ∧
        after.hasPid = before.hasPid) before := by
  obtain ⟨-, mode⟩ := settled.temporary linked
  have opened := settled.openDirectory linked
  simp only [temporaryOk, Program.perform_bind]
  rw [if_neg (by simp [fits])]
  refine wp_resting rfl fun answer middle told same pids => ?_
  have answered : answer = some id := Eq.trans told.2 opened
  subst answered
  refine wp_resting rfl fun answer after told sameAfter pidsAfter => ?_
  have shown : answer = some (before.disk.directories id).mode := by
    rw [← same]
    exact told.2
  subst shown
  refine ⟨?_, sameAfter.trans same, pidsAfter.trans pids⟩
  rw [mode]
  rfl

/-- The marker of the directory is read as it was written. -/
theorem readMarker_marked (settled : world.Settled tidy)
    (linked : world.disk.root.lookup name = some (.directory id))
    (marked : world.Marked name id owner created)
    (unchanged : before.disk = world.disk) :
    Program.wp (alone self (truthful ended now))
      (readMarker (.path name ownerMarker) 160)
      (fun read after => after.disk = before.disk ∧
        after.hasPid = before.hasPid ∧ read =
          some (Native.ownerText (world.pidOf owner) created name)) before := by
  obtain ⟨-, bounded, -⟩ := marked.bounds settled linked
  obtain ⟨temp, mode⟩ := settled.temporary linked
  obtain ⟨-, epoch, ref, present, file⟩ := marked
  rw [← unchanged] at linked mode present file
  have within : before.disk.subdirectory name = some id :=
    Disk.subdirectory_eq_some_iff.mpr linked
  have found : before.disk.openFile (.path name ownerMarker) = some ref := by
    refine Disk.openFile_eq_some_iff.mpr ⟨?_, ?_, ?_⟩
    · rw [Disk.lookup, Disk.resolve, within]
      exact present
    · simp only [Disk.searchable, within, mode]
      rfl
    · rw [file]
      rfl
  have filled : 0 <
      (Native.ownerText (world.pidOf owner) created name).length := by
    rw [Native.ownerText, List.length_append, List.length_cons]
    omega
  refine Program.wp_mono (wp_of_honest (readMarker_honest found ?_ ?_ ?_)) ?_
  · rw [file]
    rfl
  · rw [file]
    exact filled
  · rw [file]
    exact length_ownerText (by omega) epoch temp
  · rintro read after ⟨same, pids, rfl⟩
    exact ⟨same, pids, by rw [file]⟩

theorem ownerRecord_ownerText {pid : Nat} (positive : 0 < pid)
    (small : pid < 2 ^ 32) (epoch : 0 ≤ created) (temp : directoryName name) :
    ownerRecord name (Native.ownerText pid created name) =
      some ((pid : Int), created.toInt) := by
  obtain ⟨letters, nonempty, short⟩ := temp.plain
  have scanned : scanOwner (Native.ownerText pid created name) =
      some ((pid : Int), created.toInt, name) :=
    scanOwnerWith_ownerText (scanPid_reads small) epoch
      (fun byte member => visible_of_temp (letters byte member)) nonempty
      (by omega)
  have nonnegative : 0 ≤ created.toInt := by
    simpa [Int64.le_iff_toInt_le] using epoch
  rw [ownerRecord, scanned]
  exact if_pos ⟨rfl, by omega, nonnegative⟩

/-- A marked directory is one a cleanup accepts, once its process is gone and
the marker is old enough. -/
theorem accepts_of_marked (settled : world.Settled tidy)
    (linked : world.disk.root.lookup name = some (.directory id))
    (marked : world.Marked name id owner created)
    (dead : world.hasPid (world.pidOf owner) = false)
    (gone : (ended (world.pidOf owner)).Gone) (past : created ≤ now)
    {maxAgeSeconds : Int} (old : maxAgeSeconds ≤ now.toInt - created.toInt)
    (fit : PathsFit path name) (idle : world.Idle self) :
    Accepts ended now self (staleOwnedDirectory path name maxAgeSeconds)
      world := by
  have later : 0 ≤ now := Int64.le_trans marked.epoch past
  obtain ⟨value, after, run, -⟩ := Program.exists_runs
    (fun call _ ready => exists_truthful later ready call)
    (staleOwnedDirectory path name maxAgeSeconds) idle
  refine ⟨⟨value, after, run⟩, Program.wp_iff_runs.mp ?_⟩
  simp only [staleOwnedDirectory]
  rw [Program.wp_bind]
  refine Program.wp_mono (temporaryOk_truthful settled linked fit.directory) ?_
  rintro _ middle ⟨rfl, same, pids⟩
  rw [if_neg (by decide), if_neg (by simp [fit.marker, fit.listing]),
    Program.wp_bind]
  refine Program.wp_mono (readMarker_marked settled linked marked same) ?_
  rintro _ read ⟨sameRead, pidsRead, rfl⟩
  obtain ⟨temp, -⟩ := settled.temporary linked
  obtain ⟨positive, bounded, -⟩ := marked.bounds settled linked
  dsimp only
  rw [ownerRecord_ownerText positive (by omega) marked.epoch temp]
  simp only [Program.perform_bind]
  refine wp_resting rfl fun answer timed told sameTimed pidsTimed => ?_
  have clock : answer = now := told.2
  subst clock
  have since : created.toInt ≤ answer.toInt := Int64.le_iff_toInt_le.mp past
  have aged : ¬(answer < 0 ∨ created.toInt > answer.toInt ∨
      answer.toInt - created.toInt < maxAgeSeconds) := by
    rintro (early | future | young)
    · exact Int64.not_lt.mpr later early
    · omega
    · omega
  rw [if_neg aged, Program.wp_bind]
  refine Program.wp_mono (wp_of_honest (processIsAlive_honest ?_)) ?_
  · rw [pidsTimed, pidsRead, pids]
    exact dead
  · rintro alive last ⟨sameLast, looks⟩
    rw [looks.mpr gone, if_neg (by decide)]
    exact staleContents_truthful settled linked
      (sameLast.trans (sameTimed.trans (sameRead.trans same)))

end

end Windows

/-- In every run in which no deletion of an existing artifact fails and the
path of an artifact is duplicated where its directory is, a directory that
contains an artifact contains its valid marker, and a cleanup reclaims it once
its process is gone and the marker is old enough; on Windows when moreover the
paths of what a cleanup scans fit. -/
theorem marker_outlivesArtifact (paths : Process → Bytes)
    {name file : Name} {id : Nat} {ref : FileRef}
    (linked : configuration.state.disk.root.lookup name =
      some (.directory id))
    (present : configuration.state.disk.entry (.inside id file) = some ref)
    (artifact : file = artifactPart ∨ jarName file = true) :
    (Reachable (runtime.under filesDeletable) World.initial configuration →
      ∃ owner created, configuration.state.Marked name id owner created ∧
        ∀ killed now maxAgeSeconds,
          killed (configuration.state.pidOf owner) = .noSuchProcess →
          created ≤ now → maxAgeSeconds ≤ now.toInt - created.toInt →
            configuration.state.disk.Reclaimable killed now maxAgeSeconds
              name) ∧
    (Reachable ((Windows.runtime paths).under (Windows.filesDeletable paths))
      World.initial configuration →
      ∃ owner created, configuration.state.Marked name id owner created ∧
        ∀ ended now maxAgeSeconds self path,
          configuration.state.hasPid (configuration.state.pidOf owner) =
            false →
          (ended (configuration.state.pidOf owner)).Gone →
          created ≤ now → maxAgeSeconds ≤ now.toInt - created.toInt →
          Windows.PathsFit path name → configuration.state.Idle self →
            Windows.Accepts ended now self
              (Windows.staleOwnedDirectory path name maxAgeSeconds)
              configuration.state) := by
  constructor
  · intro reached
    have permits : Permits True filesDeletable :=
      fun _ _ _ _ met => ⟨met.1, fun _ => met⟩
    obtain ⟨settled, -⟩ :=
      (owning_sound permits).reachable World.initial_settled reached
    obtain ⟨owner, created, marked⟩ := settled.marked linked present artifact
    exact ⟨owner, created, marked, fun killed now maxAgeSeconds gone past old =>
      marked.reclaimable settled linked gone past old⟩
  · intro reached
    have settled := Windows.settled_of_reachable reached
    obtain ⟨owner, created, marked⟩ := settled.marked linked present artifact
    exact ⟨owner, created, marked, fun ended now maxAgeSeconds self path dead
      gone past old fit idle => Windows.accepts_of_marked settled linked marked
        dead gone past old fit idle⟩

/-- A new process publishes the small artifact by a number of calls. -/
def publishing (count : Nat) : List RuntimeMove :=
  [.other (.spawn 1), .start 0 .download] ++ obliged 0 count ++ [.finish 0]

/-- The first directory made from random zeros. -/
def Windows.firstTemp : Name :=
  tempStem ++ Hex.encode (List.replicate 16 0)

private theorem hasPid_of_stopped {world : World}
    (stopped : ∀ process < world.born, world.alive process = false)
    (pid : Int) : world.hasPid pid = false := by
  rw [World.hasPid, List.any_eq_false]
  intro process member
  simp [stopped process (List.mem_range.mp member)]

/-- The process that published the artifact has stopped: later cleanups reclaim
its directory. -/
theorem marker_outlivesArtifact_small :
    (∃ configuration : Configuration Process Call Answer (Option Artifact)
        World,
      Reachable (runtime.under filesDeletable) World.initial configuration ∧
      (configuration.state.disk.entry
        (.inside 0 (ascii "a.jar".toList))).isSome ∧
      ∃ owner created,
        configuration.state.Marked firstTemp 0 owner created ∧
        ∀ now : Int64, created ≤ now →
          86400 ≤ now.toInt - created.toInt →
            configuration.state.disk.Reclaimable (fun _ => .noSuchProcess) now
              86400 firstTemp) ∧
    ∃ configuration : Configuration Process Call Answer (Option Artifact)
        World,
      Reachable ((Windows.runtime fun _ => smallRequest.runtimeDirectory).under
        (Windows.filesDeletable fun _ => smallRequest.runtimeDirectory))
        World.initial configuration ∧
      (configuration.state.disk.entry
        (.inside 0 (ascii "a.jar".toList))).isSome ∧
      ∃ owner created,
        configuration.state.Marked Windows.firstTemp 0 owner created ∧
        ∀ now : Int64, created ≤ now →
          86400 ≤ now.toInt - created.toInt →
            Windows.Accepts (fun _ => .forgotten) now 1
              (Windows.staleOwnedDirectory smallRequest.runtimeDirectory
                Windows.firstTemp 86400) configuration.state := by
  constructor
  · obtain ⟨configuration, reached, shown⟩ :=
      (runtimeDriver.under startedDeletable).exists_reachable World.initial
        (publishing 20 ++ [.stop 0])
        (fun configuration => decide (
          configuration.state.disk.root.lookup firstTemp =
            some (.directory 0) ∧
          (configuration.state.disk.entry
            (.inside 0 (ascii "a.jar".toList))).isSome))
        (by decide +kernel)
    obtain ⟨linked, present⟩ := of_decide_eq_true shown
    obtain ⟨ref, found⟩ := Option.isSome_iff_exists.mp present
    have lifted := deletable_of_started reached
    obtain ⟨owner, created, marked, reclaimed⟩ :=
      (marker_outlivesArtifact (fun _ => []) linked found
        (Or.inr (by decide))).1 lifted
    exact ⟨configuration, lifted, present, owner, created, marked,
      fun now past old => reclaimed _ now _ rfl past old⟩
  · obtain ⟨configuration, reached, shown⟩ :=
      (Windows.runtimeDriver.under Windows.startedReached).exists_reachable
        World.initial (publishing 21 ++ [.stop 0])
        (fun configuration => decide (
          configuration.state.disk.root.lookup Windows.firstTemp =
            some (.directory 0) ∧
          (configuration.state.disk.entry
            (.inside 0 (ascii "a.jar".toList))).isSome ∧
          (∀ process < configuration.state.born,
            configuration.state.alive process = false) ∧
          (configuration.state.standing 1).missed = []))
        (by decide +kernel)
    obtain ⟨linked, present, stopped, idle⟩ := of_decide_eq_true shown
    obtain ⟨ref, found⟩ := Option.isSome_iff_exists.mp present
    have lifted := Windows.deletable_of_started reached
    obtain ⟨owner, created, marked, accepted⟩ :=
      (marker_outlivesArtifact _ linked found (Or.inr (by decide))).2 lifted
    refine ⟨configuration, lifted, present, owner, created, marked,
      fun now past old => ?_⟩
    exact accepted _ now _ 1 _ (hasPid_of_stopped stopped _) (by decide) past
      old ⟨by decide +kernel, by decide +kernel, by decide +kernel⟩ idle

/-- The artifact is released while its JAR cannot be deleted: its marker is
deleted all the same. -/
theorem release_losesMarker :
    ∃ configuration : Configuration Process Call Answer (Option Artifact)
        World,
      Reachable runtime World.initial configuration ∧
      configuration.state.disk.root.lookup firstTemp =
        some (.directory 0) ∧
      (configuration.state.disk.entry
        (.inside 0 (ascii "a.jar".toList))).isSome ∧
      jarName (ascii "a.jar".toList) = true ∧
      ∀ owner created,
        ¬configuration.state.Marked firstTemp 0 owner created := by
  obtain ⟨configuration, reached, shown⟩ :=
    runtimeDriver.exists_reachable World.initial
      (publishing 20 ++ [.start 0 .release,
        .call 0 fun self world => world.plainAnswer self] ++ obliged 0 1)
      (fun configuration => decide (
        configuration.state.disk.root.lookup firstTemp =
          some (.directory 0) ∧
        (configuration.state.disk.entry
          (.inside 0 (ascii "a.jar".toList))).isSome ∧
        configuration.state.disk.entry (.inside 0 ownerMarker) = none))
      (by decide +kernel)
  obtain ⟨linked, present, absent⟩ := of_decide_eq_true shown
  refine ⟨configuration, reached, linked, present, by decide, ?_⟩
  rintro owner created ⟨-, -, ref, found, -⟩
  rw [absent] at found
  cases found

end RymgaLoader.Native
