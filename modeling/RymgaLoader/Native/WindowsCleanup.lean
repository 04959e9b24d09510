import RymgaLoader.Native.MarkerCodecs
import RymgaLoader.Native.SharedCleanup
import RymgaLoader.Native.WindowsRuntime

/-!
# Cleaning up on Windows among other processes

`stale_owned_directory` and the deletions of `rymga_platform_cleanup_stale` of
`rymga_platform_windows.c` while other processes work in the same runtime
directory.  Every deletion looks its path up anew, and finds the directory
under examination or none.
-/

namespace RymgaLoader.Native.Windows

open Interleaving

section

variable {paths : Process → Bytes} {tidy : Prop}
  {condition : Process → (call : Call) → World → Answer call → Prop}
  {self : Process} {path : Bytes} {name : Name} {id : Nat}
  {before after : World}

/-- The path of a file besides the marker fits the buffers of the cleanup. -/
def fits (path : Bytes) (name file : Name) : Prop :=
  file ≠ ownerMarker → opens (slashed path name) file = true

/-- What `stale_owned_directory` found out. -/
def StaleFound (tidy : Prop) (process : Process) (path : Bytes) (name : Name)
    (jar : Option Name) (world : World) : Prop :=
  world.alive process = true ∧ ∀ found, jar = some found →
    found ≠ ownerMarker ∧ ∃ id, Reclaims tidy process name id
      (fun file => staleKind found file ∧ fits path name file) world

theorem staleFound_stable {jar : Option Name} : (owning tidy condition).Stable
    self (StaleFound tidy self path name jar) := by
  rintro first second settled settledAfter relied ⟨alive, found⟩
  refine ⟨(relied alive).alive, fun candidate same => ?_⟩
  obtain ⟨visible, id, reclaims⟩ := found candidate same
  exact ⟨visible, id, reclaims_stable first second settled settledAfter
    relied reclaims⟩

theorem refuse_robust (alive : before.alive self = true) :
    (owning tidy condition).Robust self (StaleFound tidy self path name)
      (.done none) before :=
  .done staleFound_stable ⟨alive, by rintro found ⟨⟩⟩

/-- The loop over the entries knows what it has found and that all paths
fit. -/
def ScansFitting (tidy : Prop) (process : Process) (path : Bytes)
    (name : Name) (id : Nat) (jar : Name) (entries : List Name)
    (world : World) : Prop :=
  Scans process name id jar entries world ∧
    Reclaims tidy process name id (fits path name) world

theorem scansFitting_stable {jar : Name} {entries : List Name} :
    (owning tidy condition).Stable self
      (ScansFitting tidy self path name id jar entries) :=
  scans_stable.and reclaims_stable

/-- A call that leaves disk and scan as they are. -/
theorem ScansFitting.rests {jar : Name} {entries : List Name} {call : Call}
    {answer : Answer call} (lingers : call.lingers)
    (unscanned : call.scans = false)
    (scans : ScansFitting tidy self path name id jar entries before)
    (acted : acts self call before answer after) :
    ScansFitting tidy self path name id jar entries after := by
  obtain ⟨⟨doomed, listed⟩, -, left⟩ := scans
  have same := World.exec_disk lingers.1 acted.2.1
  have still := doomed.changed acted lingers.2 (by rw [same]) (by rw [same])
    (by rw [same])
  refine ⟨⟨still, fun file ref found => ?_⟩, still, ?_⟩
  · rw [same] at found
    rw [(World.exec_standing acted.2.1).2.2.2 unscanned]
    exact listed file ref found
  · rw [same]
    exact left

theorem listedAs_robust {place : Place} {attributes : Mode → Bool}
    {jar : Name} {entries : List Name}
    (scans : ScansFitting tidy self path name id jar entries before) :
    (owning tidy condition).Robust self
      (fun _ => ScansFitting tidy self path name id jar entries)
      (listedAs place attributes) before := by
  simp only [listedAs, Program.perform_bind]
  refine Discipline.Robust.call scansFitting_stable scans ?_
  rintro middle answer after settled scans ⟨acted, -⟩
  refine ⟨keeps_of_quiet rfl settled acted, ?_⟩
  have still := scans.rests ⟨rfl, rfl⟩ rfl acted
  cases answer with
  | none => exact .done scansFitting_stable still
  | some info => exact .done scansFitting_stable still

theorem staleEntries_robust {jar : Name} {entries : List Name}
    (visible : jar ≠ ownerMarker)
    (scans : ScansFitting tidy self path name id jar entries before) :
    (owning tidy condition).Robust self (StaleFound tidy self path name)
      (staleEntries id jar entries) before := by
  induction entries generalizing jar before with
  | nil =>
      refine Discipline.Robust.call scansFitting_stable scans ?_
      rintro middle answer after settled scans ⟨acted, -⟩
      obtain ⟨⟨still, listed⟩, -, left⟩ := scans.rests ⟨rfl, rfl⟩ rfl acted
      have same := World.exec_disk rfl acted.2.1
      refine ⟨keeps_of_quiet rfl settled acted, .done staleFound_stable
        ⟨still.examines.alive, ?_⟩⟩
      rintro _ ⟨⟩
      refine ⟨visible, id, still, fun clean file ref found => ?_⟩
      refine ⟨?_, left clean file ref found⟩
      obtain ⟨-, kind | member | missed⟩ := listed file ref found
      · exact kind
      · cases member
      · rw [(World.exec_standing acted.2.1).2.2.2 rfl] at missed
        refine absurd ?_ (World.exec_endScan acted.2.1 file missed)
        rw [same] at found
        exact AList.mem_keys.mp (AList.lookup_isSome.mp
          (Option.isSome_iff_exists.mpr ⟨ref, found⟩))
  | cons entry entries ih =>
      rw [staleEntries]
      split
      · rename_i skipped
        refine ih visible ⟨scans.1.skip (fun _ _ kind => kind) fun named => ?_,
          scans.2⟩
        obtain ⟨dot, dots⟩ := artifactName_plain named
        exact Or.inl ((skipped.resolve_left dot).resolve_left dots)
      refine Discipline.Robust.bind (listedAs_robust scans) ?_
      rintro regular after ⟨scans, fitting⟩
      have refuse : (owning tidy condition).Robust self
          (StaleFound tidy self path name) (.done none) after :=
        refuse_robust scans.doomed.examines.alive
      split
      · exact refuse
      split
      · rename_i part
        exact ih visible ⟨scans.skip (fun _ _ kind => kind)
          fun _ => Or.inr (Or.inl part), fitting⟩
      split
      · exact refuse
      · rename_i accepted
        have single : (jarName entry = true ∧ jar = []) ∧
            copies entry = true := by
          simpa using accepted
        obtain ⟨⟨named, rfl⟩, -⟩ := single
        refine ih ?_ ⟨scans.skip ?_ ?_, fitting⟩
        · rintro rfl
          cases named
        · rintro file - (marker | part | ⟨impossible, -⟩)
          · exact Or.inl marker
          · exact Or.inr (Or.inl part)
          · exact absurd rfl impossible
        · rintro -
          refine Or.inr (Or.inr ⟨?_, rfl⟩)
          rintro rfl
          cases named

/-- The directory under examination and the name it was made under. -/
structure Opened (process : Process) (name : Name) (id : Nat)
    (world : World) : Prop where
  doomed : Doomed process name id world
  named : (world.disk.directories id).name = name

theorem opened_stable :
    (owning tidy condition).Stable self (Opened self name id) := by
  rintro first second settled settledAfter relied ⟨doomed, named⟩
  have spares := relied doomed.examines.alive
  refine ⟨doomed_stable first second settled settledAfter relied doomed, ?_⟩
  rw [(spares.disk.fixed id doomed.examines.older).2, named]

theorem staleContents_robust (allows : Allows paths tidy condition)
    (doomed : Doomed self name id before) :
    (owning tidy condition).Robust self
      (StaleFound tidy self (paths self) name) (staleContents name)
      before := by
  simp only [staleContents, Program.perform_bind]
  refine Discipline.Robust.call doomed_stable doomed ?_
  rintro middle answer after settled doomed ⟨acted, -⟩
  refine ⟨keeps_of_quiet rfl settled acted, ?_⟩
  cases answer with
  | none =>
      refine refuse_robust ?_
      rw [(World.exec_frame acted.2.1).1]
      exact doomed.examines.alive
  | some listed =>
      obtain ⟨rfl, still⟩ := doomed.reopened acted
      have linked := Disk.subdirectory_eq_some_iff.mp
        ((World.exec_openDirectory acted.2.1).1 listed rfl)
      obtain ⟨_, node, -, named⟩ := settled.disk.linked name _ linked
      cases node
      have opened : Opened self name listed after := by
        refine ⟨still, ?_⟩
        rw [World.exec_disk rfl acted.2.1, named]
      dsimp only
      refine Discipline.Robust.call opened_stable opened ?_
      rintro middle names after settled ⟨doomed, named⟩ ⟨acted, met⟩
      refine ⟨keeps_of_quiet rfl settled acted, ?_⟩
      cases names with
      | none =>
          refine refuse_robust ?_
          rw [(World.exec_frame acted.2.1).1]
          exact doomed.examines.alive
      | some names =>
          have scans := doomed.scans settled acted
          refine staleEntries_robust (by decide)
            ⟨scans, scans.doomed, fun clean file ref found visible => ?_⟩
          rw [World.exec_disk rfl acted.2.1] at found
          have reached := allows.reached clean self listed names middle met
            file ref found
          rw [named] at reached
          refine reached ?_
          rcases (settled.disk.entries listed file ref found).named with
            marker | part | ⟨jar, -⟩
          · exact absurd marker visible
          · exact Or.inl part
          · exact Or.inr jar

/-- What the attributes and the owner of the directory tell. -/
def Checked (process : Process) (name : Name) (ok : Bool) (world : World) :
    Prop :=
  world.alive process = true ∧
    (ok = true → ∃ id, Examines process name id world)

theorem checked_stable {ok : Bool} :
    (owning tidy condition).Stable self (Checked self name ok) := by
  rintro first second settled settledAfter relied ⟨alive, found⟩
  refine ⟨(relied alive).alive, fun same => ?_⟩
  obtain ⟨id, examines⟩ := found same
  exact ⟨id, examines_stable first second settled settledAfter relied
    examines⟩

theorem temporaryOk_robust (alive : before.alive self = true) :
    (owning tidy condition).Robust self (Checked self name)
      (temporaryOk path name) before := by
  have refuse : ∀ world, world.alive self = true →
      (owning tidy condition).Robust self (Checked self name) (.done false)
        world :=
    fun world alive => .done checked_stable ⟨alive, by rintro ⟨⟩⟩
  simp only [temporaryOk, Program.perform_bind]
  split
  · exact refuse before alive
  refine Discipline.Robust.call lasting_alive.stable alive ?_
  rintro middle answer opened settled alive ⟨acted, -⟩
  refine ⟨keeps_of_quiet rfl settled acted, ?_⟩
  have living : opened.alive self = true := by
    rw [(World.exec_frame acted.2.1).1, alive]
  cases answer with
  | none => exact refuse opened living
  | some id =>
      have examines : Examines self name id opened := .of_open settled acted
      refine robust_examine ⟨rfl, rfl⟩ examines ?_
      intro _ mode after _ _ _ examines
      cases mode with
      | none => exact refuse after examines.alive
      | some mode =>
          exact .done checked_stable ⟨examines.alive, fun _ => ⟨id, examines⟩⟩

/-- The path of the marker leads into the directory under examination. -/
theorem Examines.lookup_path {file : Name} {ref : FileRef}
    (examines : Examines self name id before)
    (found : before.disk.lookup (.path name file) = some ref) :
    before.disk.entry (.inside id file) = some ref := by
  rw [Disk.lookup, Option.bind_eq_some_iff] at found
  obtain ⟨slot, resolved, present⟩ := found
  obtain ⟨located, there, rfl⟩ := Option.map_eq_some_iff.mp resolved
  cases examines.linked _ (Disk.subdirectory_eq_some_iff.mp there)
  exact present

theorem readMarker_robust (examines : Examines self name id before) :
    (owning tidy condition).Robust self (MarkerRead self name id)
      (readMarker (.path name ownerMarker) 160) before := by
  have refuse : ∀ world, Examines self name id world →
      (owning tidy condition).Robust self (MarkerRead self name id)
        (.done none) world := by
    intro world examines
    exact .done markerRead_stable ⟨examines, by rintro bytes ⟨⟩⟩
  simp only [readMarker, Program.perform_bind]
  refine robust_examine ⟨rfl, rfl⟩ examines ?_
  intro middle answer opened settled examined acted examines
  cases answer with
  | none => exact refuse opened examines
  | some marker =>
      have opens : OpensMarker self id marker opened :=
        .of_open settled examines.alive
          (Examines.lookup_path examined (World.exec_openRead acted.2.1).1)
          acted
      refine Discipline.Robust.call
        (examines_stable.and lasting_opensMarker.stable) ⟨examines, opens⟩ ?_
      rintro middle info told settled ⟨examines, opens⟩ ⟨acted, -⟩
      refine ⟨keeps_of_quiet rfl settled acted, ?_⟩
      have still := examines.lingers ⟨rfl, rfl⟩ acted
      have stillOpen := opens.rests (rests_of_quiet rfl acted)
      cases info with
      | none => exact refuse told still
      | some info =>
          dsimp only
          split
          · exact refuse told still
          refine Discipline.Robust.call
            (examines_stable.and lasting_opensMarker.stable)
            ⟨still, stillOpen⟩ ?_
          rintro middle content read settled ⟨examines, opens⟩ ⟨acted, -⟩
          refine ⟨keeps_of_quiet rfl settled acted, ?_⟩
          have still := examines.lingers ⟨rfl, rfl⟩ acted
          cases content with
          | none => exact refuse read still
          | some content =>
              dsimp only
              split
              · refine .done markerRead_stable ⟨still, ?_⟩
                rintro _ ⟨⟩
                exact .of_read settled opens acted
              · exact refuse read still

theorem pid_of_ownerRecord {content : Bytes} {scanned created : Int}
    (recorded : ownerRecord name content = some (scanned, created))
    (pid : Nat) (written : Int64) (maker : Name)
    (bounded : (pid : Int) ≤ intMax)
    (text : content <+: Native.ownerText pid written maker) :
    scanned = pid := by
  have small : pid < 2 ^ 32 := by
    have limit : intMax = 2147483647 := rfl
    omega
  unfold ownerRecord at recorded
  split at recorded
  · rename_i first second marked scans
    split at recorded
    · cases recorded
      exact scanOwner_of_cut small text scans
    · cases recorded
  · cases recorded

/-- What `process_is_alive` tells of the process of the marker. -/
def ProcessAsked (process : Process) (name : Name) (id : Nat)
    (alive : Bool) (world : World) : Prop :=
  world.alive process = true ∧ (alive = false → Doomed process name id world)

theorem processAsked_stable {alive : Bool} : (owning tidy condition).Stable
    self (ProcessAsked self name id alive) := by
  rintro first second settled settledAfter relied ⟨living, gone⟩
  exact ⟨(relied living).alive, fun same => doomed_stable first second settled
    settledAfter relied (gone same)⟩

theorem processIsAlive_robust {content : Bytes} {scanned created : Int}
    (recorded : ownerRecord name content = some (scanned, created))
    (read : MarkerRead self name id (some content) before) :
    (owning tidy condition).Robust self (ProcessAsked self name id)
      (processIsAlive scanned) before := by
  have running : ∀ world, world.alive self = true →
      (owning tidy condition).Robust self (ProcessAsked self name id)
        (.done true) world :=
    fun world alive => .done processAsked_stable ⟨alive, by rintro ⟨⟩⟩
  have ended : ∀ {call : Call} {answer : Answer call} {middle after : World},
      middle.Settled tidy → MarkerRead self name id (some content) middle →
      call.lingers → acts self call middle answer after →
      middle.hasPid scanned = false → Doomed self name id after := by
    intro call answer middle after settled known lingers acted missing
    have doomed := known.doomed settled (pid_of_ownerRecord recorded) missing
    have same := World.exec_disk lingers.1 acted.2.1
    exact doomed.changed acted lingers.2 (by rw [same]) (by rw [same])
      (by rw [same])
  simp only [processIsAlive, Program.perform_bind]
  refine robust_testified ⟨rfl, rfl⟩ read ?_
  intro middle answer opened settled known acted read
  cases answer with
  | accessDenied => exact running opened read.1.alive
  | failed =>
      exact .done processAsked_stable ⟨read.1.alive, fun _ =>
        ended settled known ⟨rfl, rfl⟩ acted
          (World.exec_openProcess acted.2.1)⟩
  | opened =>
      refine robust_testified ⟨rfl, rfl⟩ read ?_
      intro middle code after settled known acted read
      cases code with
      | none => exact running after read.1.alive
      | some code =>
          refine .done processAsked_stable ⟨read.1.alive, fun gone => ?_⟩
          exact ended settled known ⟨rfl, rfl⟩ acted
            (World.exec_exitCode acted.2.1 (of_decide_eq_false gone))

theorem staleOwnedDirectory_robust {maxAgeSeconds : Int}
    (allows : Allows paths tidy condition)
    (alive : before.alive self = true) :
    (owning tidy condition).Robust self
      (StaleFound tidy self (paths self) name)
      (staleOwnedDirectory (paths self) name maxAgeSeconds) before := by
  rw [staleOwnedDirectory]
  refine Discipline.Robust.bind (temporaryOk_robust alive) ?_
  rintro ok checked ⟨living, found⟩
  split
  · exact refuse_robust living
  rename_i usable
  obtain ⟨id, examines⟩ := found (by simpa using usable)
  split
  · exact refuse_robust living
  refine Discipline.Robust.bind (readMarker_robust examines) ?_
  rintro content after read
  cases content with
  | none => exact refuse_robust read.1.alive
  | some content =>
      dsimp only
      split
      · exact refuse_robust read.1.alive
      rename_i pid created recorded
      simp only [Program.perform_bind]
      refine robust_testified ⟨rfl, rfl⟩ read ?_
      intro _ now after _ _ _ read
      split
      · exact refuse_robust read.1.alive
      refine Discipline.Robust.bind (processIsAlive_robust recorded read) ?_
      rintro running asked ⟨living, doomed⟩
      cases running with
      | true => exact refuse_robust living
      | false => exact staleContents_robust allows (doomed rfl)

theorem alive_stable : (sharing paths tidy condition).Stable self
    fun world => world.alive self = true :=
  stable_of_native lasting_alive.stable

theorem done_robust {β : Type} {value : β} (alive : before.alive self = true) :
    (sharing paths tidy condition).Robust self
      (fun _ world => world.alive self = true) (.done value) before :=
  .done alive_stable alive

/-- A call of the cleanup that leaves the disk as it is. -/
theorem call_robust {β : Type} {post : β → World → Prop} {call : Call}
    {next : Answer call → Os β} (quiet : call.changesDisk = false)
    (alive : before.alive self = true)
    (rest : ∀ answer after, after.alive self = true →
      (sharing paths tidy condition).Robust self post (next answer) after) :
    (sharing paths tidy condition).Robust self post (.call call next)
      before := by
  refine Discipline.Robust.call alive_stable alive ?_
  rintro middle answer after ⟨settled, spelled⟩ alive ⟨acted, -⟩
  refine ⟨keeps_of_native spelled acted (keeps_of_quiet quiet settled acted),
    rest answer after ?_⟩
  rw [(World.exec_frame acted.2.1).1, alive]

/-- While the directory of a dead process has its name, what is left in it is
in tidy runs of these kinds. -/
structure Withdraws (tidy : Prop) (process : Process) (name : Name) (id : Nat)
    (kept : Name → Prop) (world : World) : Prop where
  doomed : Doomed process name id world
  left : tidy → world.disk.root.lookup name = some (.directory id) →
    ∀ file ref, world.disk.entry (.inside id file) = some ref → kept file

theorem Withdraws.mono {kept weaker : Name → Prop}
    (withdraws : Withdraws tidy self name id kept before)
    (weakens : ∀ file, kept file → weaker file) :
    Withdraws tidy self name id weaker before :=
  ⟨withdraws.doomed, fun clean linked file ref found =>
    weakens file (withdraws.left clean linked file ref found)⟩

theorem withdraws_stable {kept : Name → Prop} :
    (sharing paths tidy condition).Stable self
      (Withdraws tidy self name id kept) := by
  refine stable_of_native ?_
  rintro first second settled settledAfter relied ⟨doomed, left⟩
  refine ⟨doomed_stable first second settled settledAfter relied doomed, ?_⟩
  intro clean linked file ref found
  have spares := relied doomed.examines.alive
  exact left clean (spares.roots name doomed.examines.working _ linked) file
    ref (doomed.shrinks relied found)

/-- `DeleteFileW` for a file of the directory; the marker goes last. -/
theorem keeps_deleteFile {file : Name} {answer : Bool} {kept : Name → Prop}
    (allows : Allows paths tidy condition)
    (settled : before.Settled tidy) (spelled : Spelled paths before)
    (withdraws : Withdraws tidy self name id kept before)
    (acted : acts self (.unlink (.path name file)) before answer after)
    (met : condition self (.unlink (.path name file)) before answer)
    (last : file = ownerMarker → ∀ other, kept other →
      other = ownerMarker) :
    (sharing paths tidy condition).Keeps self (.unlink (.path name file))
        before answer after ∧
      Withdraws tidy self name id (fun other => kept other ∧
        (other = file → file = ownerMarker)) after := by
  obtain ⟨doomed, left⟩ := withdraws
  rcases World.exec_unlink acted.2.1 with ⟨rfl, same⟩ | ⟨slot, rfl, resolved,
    -, same⟩
  · refine ⟨keeps_of_native spelled acted
      (keeps_of_same settled acted same trivial), ?_, ?_⟩
    · exact doomed.changed acted rfl (by rw [same]) (by rw [same])
        (by rw [same])
    · intro clean linked other ref found
      rw [same] at linked found
      refine ⟨left clean linked other ref found, ?_⟩
      rintro rfl
      by_contra notMarker
      have absent := ((allows.files _ _ _ _ met).2 clean).2 notMarker
      have there : before.disk.lookup (.path name other) =
          before.disk.entry (.inside id other) := by
        rw [Disk.lookup, Disk.resolve,
          Disk.subdirectory_eq_some_iff.mpr linked]
        rfl
      rw [there, found] at absent
      cases absent
  · obtain ⟨located, there, rfl⟩ := Option.map_eq_some_iff.mp resolved
    have linked := Disk.subdirectory_eq_some_iff.mp there
    cases doomed.examines.linked _ linked
    obtain ⟨⟨settledAfter, spares⟩, still, root, shrinks⟩ :=
      doomed.unlinks settled acted rfl same fun clean marker other
        different => by
          cases found : before.disk.entry (.inside id other) with
          | none => rfl
          | some ref =>
              exact absurd (last marker other
                (left clean linked other ref found)) different
    refine ⟨⟨⟨settledAfter, spelled.acts acted⟩, spares, trivial⟩, still, ?_⟩
    intro clean _ other ref found
    obtain ⟨different, present⟩ := shrinks other ref found
    exact ⟨left clean linked other ref present, fun equal =>
      absurd equal different⟩

/-- `rymga_platform_remove_file` in the directory; a file whose path is not
converted stays. -/
theorem removeFile_robust {file : Name} {kept : Name → Prop}
    (allows : Allows paths tidy condition)
    (last : file = ownerMarker → ∀ other, kept other → other = ownerMarker)
    (withdraws : Withdraws tidy self name id kept before) :
    (sharing paths tidy condition).Robust self
      (fun _ => Withdraws tidy self name id fun other => kept other ∧
        (other = file → file = ownerMarker ∨
          windows.reachesFile path name file = false))
      (windows.removeFile path name file) before := by
  rw [Platform.removeFile]
  split
  · refine Discipline.Robust.call withdraws_stable withdraws ?_
    rintro middle answer after ⟨settled, spelled⟩ withdraws ⟨acted, met⟩
    obtain ⟨keeps, still⟩ := keeps_deleteFile allows settled spelled withdraws
      acted met last
    refine ⟨keeps, .done withdraws_stable (still.mono ?_)⟩
    rintro other ⟨held, same⟩
    exact ⟨held, fun equal => Or.inl (same equal)⟩
  · rename_i unreached
    refine .done withdraws_stable (withdraws.mono fun other held => ?_)
    exact ⟨held, fun _ => Or.inr ((Bool.not_eq_true _).mp unreached)⟩

/-- `rymga_platform_remove_directory`, once nothing but the marker is left. -/
theorem removeDirectory_robust (allows : Allows paths tidy condition)
    (withdraws : Withdraws tidy self name id (· = ownerMarker) before) :
    (sharing paths tidy condition).Robust self
      (fun _ world => world.alive self = true)
      (windows.removeDirectory path name) before := by
  have remove : ∀ kept world, Withdraws tidy self name id kept world →
      (sharing paths tidy condition).Robust self
        (fun _ world => world.alive self = true)
        (if windows.reaches (slashed path name) then do
          let _ ← sys (.rmdir name)
          return ()
        else return ()) world := by
    intro kept world withdraws
    split
    · refine Discipline.Robust.call withdraws_stable withdraws ?_
      rintro middle answer after ⟨settled, spelled⟩ ⟨doomed, -⟩ ⟨acted, -⟩
      have living : after.alive self = true := by
        rw [(World.exec_frame acted.2.1).1, doomed.examines.alive]
      refine ⟨?_, done_robust living⟩
      rcases World.exec_rmdir acted.2.1 with ⟨rfl, same⟩ | ⟨located, rfl,
        found, -, same⟩
      · exact keeps_of_native spelled acted
          (keeps_of_same settled acted same trivial)
      · obtain ⟨settledAfter, spares⟩ :=
          doomed.removed settled acted found same
        exact ⟨⟨settledAfter, spelled.acts acted⟩, spares, trivial⟩
    · exact done_robust withdraws.doomed.examines.alive
  simp only [Platform.removeDirectory]
  split
  · refine Discipline.Robust.bind (removeFile_robust allows
      (fun _ _ marker => marker) withdraws) ?_
    exact fun _ after withdraws => remove _ after withdraws
  · exact remove _ before withdraws

theorem deleteFitting_robust {file : Name} {kept : Name → Prop}
    (allows : Allows paths tidy condition) (visible : file ≠ ownerMarker)
    (reached : kept file → fits path name file)
    (withdraws : Withdraws tidy self name id kept before) :
    (sharing paths tidy condition).Robust self
      (fun _ => Withdraws tidy self name id fun other => kept other ∧
        other ≠ file) (deleteFitting path name file) before := by
  have opened : kept file →
      (slashed (slashed path name) file).length < pathMax ∧
        windows.reachesFile path name file = true := by
    intro held
    have fit := reached held visible
    simp only [opens, Bool.and_eq_true, decide_eq_true_eq] at fit
    exact fit
  rw [deleteFitting]
  split
  · refine Discipline.Robust.bind (removeFile_robust allows
      (fun same => absurd same visible) withdraws) ?_
    rintro _ after withdraws
    refine .done withdraws_stable (withdraws.mono ?_)
    rintro other ⟨held, same⟩
    refine ⟨held, ?_⟩
    rintro rfl
    rcases same rfl with marker | unreached
    · exact visible marker
    · rw [(opened held).2] at unreached
      cases unreached
  · rename_i long
    refine .done withdraws_stable (withdraws.mono fun other held => ⟨held, ?_⟩)
    rintro rfl
    exact long (opened held).1

theorem reclaim_robust {jar : Name} (allows : Allows paths tidy condition)
    (visible : jar ≠ ownerMarker)
    (reclaims : Reclaims tidy self name id
      (fun file => staleKind jar file ∧ fits path name file) before) :
    (sharing paths tidy condition).Robust self
      (fun _ world => world.alive self = true) (reclaim path name jar)
      before := by
  have withdraws : Withdraws tidy self name id
      (fun file => staleKind jar file ∧ fits path name file) before :=
    ⟨reclaims.doomed, fun clean _ => reclaims.left clean⟩
  have remove : ∀ world, Withdraws tidy self name id (fun file =>
      (file = ownerMarker ∨ file = artifactPart) ∧ fits path name file)
        world → (sharing paths tidy condition).Robust self
      (fun _ world => world.alive self = true)
      (do
        deleteFitting path name artifactPart
        windows.removeDirectory path name) world := by
    intro world withdraws
    refine Discipline.Robust.bind (deleteFitting_robust allows (by decide)
      (fun held => held.2) withdraws) ?_
    rintro _ after withdraws
    refine removeDirectory_robust allows (withdraws.mono ?_)
    rintro file ⟨⟨kind, -⟩, notPart⟩
    exact kind.resolve_right notPart
  simp only [reclaim]
  split
  · refine Discipline.Robust.bind (deleteFitting_robust allows visible
      (fun held => held.2) withdraws) ?_
    rintro _ middle withdraws
    refine remove middle (withdraws.mono ?_)
    rintro file ⟨⟨marker | part | ⟨-, named⟩, fit⟩, other⟩
    · exact ⟨Or.inl marker, fit⟩
    · exact ⟨Or.inr part, fit⟩
    · exact absurd named other
  · rename_i nothing
    refine remove before (withdraws.mono ?_)
    rintro file ⟨marker | part | ⟨some, -⟩, fit⟩
    · exact ⟨Or.inl marker, fit⟩
    · exact ⟨Or.inr part, fit⟩
    · exact absurd some nothing

theorem cleanupEntries_robust {maxAgeSeconds : Int} {checked : Nat}
    {entries : List Name} (allows : Allows paths tidy condition)
    (alive : before.alive self = true) :
    (sharing paths tidy condition).Robust self
      (fun _ world => world.alive self = true)
      (cleanupEntries (paths self) maxAgeSeconds checked entries) before := by
  induction entries generalizing checked before with
  | nil => exact done_robust alive
  | cons entry entries ih =>
      rw [cleanupEntries]
      split
      · split
        · exact ih alive
        have listed : (sharing paths tidy condition).Robust self
            (fun _ world => world.alive self = true)
            (listedAs (.top entry) (!·.regular)) before := by
          simp only [listedAs, Program.perform_bind]
          refine call_robust rfl alive fun answer after alive => ?_
          cases answer with
          | none => exact done_robust alive
          | some info => exact done_robust alive
        refine Discipline.Robust.bind listed ?_
        rintro directory after alive
        split
        · exact ih alive
        have examined : (sharing paths tidy condition).Robust self
            (StaleFound tidy self (paths self) entry)
            (staleJar (paths self) entry maxAgeSeconds) after := by
          refine robust_of_native ?_
          rw [staleJar]
          split
          · exact staleOwnedDirectory_robust allows alive
          · exact refuse_robust alive
        refine Discipline.Robust.bind examined ?_
        rintro jar last ⟨living, found⟩
        cases jar with
        | none => exact ih living
        | some jar =>
            obtain ⟨visible, id, reclaims⟩ := found jar rfl
            exact Discipline.Robust.bind
              (reclaim_robust allows visible reclaims)
              fun _ final living => ih living
      · exact done_robust alive

theorem cleanupStale_robust {maxAgeSeconds : Int}
    (allows : Allows paths tidy condition)
    (alive : before.alive self = true) :
    (sharing paths tidy condition).Robust self
      (fun _ world => world.alive self = true)
      (cleanupStale (paths self) maxAgeSeconds) before := by
  simp only [cleanupStale, Program.perform_bind]
  split
  · exact done_robust alive
  refine call_robust rfl alive fun answer after alive => ?_
  split
  · exact done_robust alive
  split
  · exact done_robust alive
  refine call_robust rfl alive fun names after alive => ?_
  cases names with
  | none => exact done_robust alive
  | some names => exact cleanupEntries_robust allows alive

end

end RymgaLoader.Native.Windows
