import RymgaLoader.Native.OwnDirectory
import RymgaLoader.Native.Stale

/-!
# Cleaning up among other processes

`stale_owned_directory` and the deletions of `rymga_platform_cleanup_stale`
while other processes work in the same runtime directory.  The directory under
examination can disappear but is not replaced, and once its process is known
to be dead nothing is added to it.
-/

namespace RymgaLoader.Native

open Interleaving

section

variable {tidy : Prop}
  {condition : Process → (call : Call) → World → Answer call → Prop}
  {self : Process} {name : Name} {id : Nat} {before after : World}

/-- The process stands at this directory: nothing else is linked under its
name. -/
structure Examines (process : Process) (name : Name) (id : Nat)
    (world : World) : Prop where
  alive : world.alive process = true
  working : (world.standing process).working = some name
  older : id < world.disk.nextDirectory
  linked : ∀ node, world.disk.root.lookup name = some node →
    node = .directory id

/-- Its own process is dead. -/
structure Doomed (process : Process) (name : Name) (id : Nat)
    (world : World) : Prop where
  examines : Examines process name id world
  dead : ∃ owner < world.born,
    (world.disk.directories id).creator = some owner ∧
      world.alive owner = false

/-- In tidy runs what is left in the directory is of these kinds. -/
structure Reclaims (tidy : Prop) (process : Process) (name : Name) (id : Nat)
    (kept : Name → Prop) (world : World) : Prop where
  doomed : Doomed process name id world
  left : tidy → ∀ file ref,
    world.disk.entry (.inside id file) = some ref → kept file

/-- What the process has opened as the marker of the directory. -/
structure OpensMarker (process : Process) (id : Nat) (ref : FileRef)
    (world : World) : Prop where
  alive : world.alive process = true
  index : ref.index < world.disk.nextFile
  origin : world.disk.origin ref = some (.inside id ownerMarker)

/-- These bytes are the beginning of the directory's marker. -/
structure Testifies (process : Process) (id : Nat) (content : Bytes)
    (world : World) : Prop where
  alive : world.alive process = true
  older : id < world.disk.nextDirectory
  text : ∃ owner < world.born,
    (world.disk.directories id).creator = some owner ∧ ∃ created,
      content <+: ownerText (world.pidOf owner) created
        (world.disk.directories id).name

theorem examines_stable :
    (owning tidy condition).Stable self (Examines self name id) := by
  rintro first second - - relied ⟨alive, working, older, linked⟩
  have spares := relied alive
  refine ⟨spares.alive, ?_, ?_, ?_⟩
  · rw [spares.standing, working]
  · exact Nat.lt_of_lt_of_le older spares.disk.directories
  · intro node found
    exact linked node (spares.roots name working node found)

theorem doomed_stable :
    (owning tidy condition).Stable self (Doomed self name id) := by
  rintro first second settled settledAfter relied
    ⟨examines, owner, born, creator, dead⟩
  have spares := relied examines.alive
  refine ⟨examines_stable first second settled settledAfter relied examines,
    owner, Nat.lt_of_lt_of_le born spares.born, ?_,
    spares.dead owner born dead⟩
  rw [(spares.disk.fixed id examines.older).1, creator]

/-- The entries of a dead process only disappear. -/
theorem Doomed.shrinks (doomed : Doomed self name id before)
    (relied : (owning tidy condition).rely self before after) {file : Name}
    {ref : FileRef}
    (found : after.disk.entry (.inside id file) = some ref) :
    before.disk.entry (.inside id file) = some ref := by
  obtain ⟨owner, -, creator, dead⟩ := doomed.dead
  exact (relied doomed.examines.alive).disk.shrinks id doomed.examines.older
    owner creator dead file ref found

theorem reclaims_stable {kept : Name → Prop} :
    (owning tidy condition).Stable self
      (Reclaims tidy self name id kept) := by
  rintro first second settled settledAfter relied ⟨doomed, left⟩
  refine ⟨doomed_stable first second settled settledAfter relied doomed, ?_⟩
  intro clean file ref found
  exact left clean file ref (doomed.shrinks relied found)

theorem OpensMarker.rests {ref : FileRef}
    (opens : OpensMarker self id ref before)
    (rested : before.Rests self after) : OpensMarker self id ref after := by
  obtain ⟨alive, index, origin⟩ := opens
  refine ⟨?_, ?_, ?_⟩
  · rw [rested.alive, alive]
  · rw [rested.disk]
    exact index
  · rw [rested.disk, origin]

theorem lasting_opensMarker {ref : FileRef} :
    Lasting tidy condition self (OpensMarker self id ref) where
  stable := by
    rintro first second - - relied ⟨alive, index, origin⟩
    have spares := relied alive
    refine ⟨spares.alive, Nat.lt_of_lt_of_le index spares.disk.files, ?_⟩
    rw [spares.disk.origin ref index, origin]
  rests _ _ rested opens := opens.rests rested

theorem Testifies.rests {content : Bytes}
    (testifies : Testifies self id content before)
    (rested : before.Rests self after) : Testifies self id content after := by
  obtain ⟨alive, older, owner, born, creator, created, text⟩ := testifies
  refine ⟨?_, ?_, owner, ?_, ?_, created, ?_⟩
  · rw [rested.alive, alive]
  · rw [rested.disk]
    exact older
  · rw [rested.born]
    exact born
  · rw [rested.disk, creator]
  · rw [rested.disk, rested.pids]
    exact text

theorem lasting_testifies {content : Bytes} :
    Lasting tidy condition self (Testifies self id content) where
  stable := by
    rintro first second - - relied
      ⟨alive, older, owner, born, creator, created, text⟩
    have spares := relied alive
    obtain ⟨sameCreator, sameName⟩ := spares.disk.fixed id older
    refine ⟨spares.alive, Nat.lt_of_lt_of_le older spares.disk.directories,
      owner, Nat.lt_of_lt_of_le born spares.born, ?_, created, ?_⟩
    · rw [sameCreator, creator]
    · rw [sameName, spares.pids owner born]
      exact text
  rests _ _ rested testifies := testifies.rests rested

/-- A call after which the process stands where it stood. -/
def Call.lingers (call : Call) : Prop :=
  call.changesDisk = false ∧ call.movesOn = false

theorem Examines.lingers {call : Call} {answer : Answer call}
    (lingers : call.lingers) (examines : Examines self name id before)
    (acted : acts self call before answer after) :
    Examines self name id after := by
  obtain ⟨alive, working, older, linked⟩ := examines
  have same : after.disk = before.disk :=
    World.exec_disk lingers.1 acted.2.1
  refine ⟨?_, ?_, ?_, ?_⟩
  · rw [(World.exec_frame acted.2.1).1, alive]
  · rw [(World.exec_standing acted.2.1).2.2.1 lingers.2, working]
  · rw [same]
    exact older
  · rw [same]
    exact linked

theorem Doomed.changed {call : Call} {answer : Answer call}
    (doomed : Doomed self name id before)
    (acted : acts self call before answer after)
    (stays : call.movesOn = false)
    (directories : after.disk.nextDirectory = before.disk.nextDirectory)
    (root : after.disk.root = before.disk.root)
    (creator : (after.disk.directories id).creator =
      (before.disk.directories id).creator) : Doomed self name id after := by
  obtain ⟨⟨living, working, older, linked⟩, owner, born, made, dead⟩ := doomed
  obtain ⟨alive, -, sameBorn, -⟩ := World.exec_frame acted.2.1
  refine ⟨⟨?_, ?_, ?_, ?_⟩, owner, ?_, ?_, ?_⟩
  · rw [alive, living]
  · rw [(World.exec_standing acted.2.1).2.2.1 stays, working]
  · rw [directories]
    exact older
  · rw [root]
    exact linked
  · rw [sameBorn]
    exact born
  · rw [creator, made]
  · rw [alive, dead]

/-- A file goes that was left in the directory; the marker goes last. -/
theorem Doomed.unlinks {call : Call} {answer : Answer call} {file : Name}
    (settled : before.Settled tidy) (doomed : Doomed self name id before)
    (acted : acts self call before answer after) (stays : call.movesOn = false)
    (same : after.disk = before.disk.detach (.inside id file))
    (last : tidy → file = ownerMarker → ∀ other, other ≠ ownerMarker →
      before.disk.entry (.inside id other) = none) :
    (after.Settled tidy ∧ ∀ other, other ≠ self →
      before.alive other = true → before.Spares other after) ∧
      Doomed self name id after ∧
      after.disk.root = before.disk.root ∧
      ∀ other ref, after.disk.entry (.inside id other) = some ref →
        other ≠ file ∧ before.disk.entry (.inside id other) = some ref := by
  obtain ⟨owner, -, creator, dead⟩ := doomed.dead
  have edits : Disk.Edits self id before.disk after.disk := by
    rw [same]
    exact .detach self file
  have shrinks : ∀ other ref,
      after.disk.entry (.inside id other) = some ref →
        other ≠ file ∧ before.disk.entry (.inside id other) = some ref := by
    intro other ref found
    rw [same, Disk.entry_detach] at found
    split at found
    · cases found
    · rename_i different
      exact ⟨fun equal => different (by rw [equal]), found⟩
  refine ⟨settled.confined acted (edits.confined_dead creator dead
    fun other ref found => (shrinks other ref found).2) ?_ ?_
    (by rintro chosen candidate ⟨⟩) ?_, ?_, edits.root, shrinks⟩
  · rw [same]
    exact settled.disk.detach last
  · rw [same]
    exact settled.single.fewer fun _ _ _ _ => Disk.entry_of_detach
  · intro candidate node found
    rw [edits.root] at found
    exact Or.inl found
  · exact doomed.changed acted stays edits.directories edits.root
      (edits.fixed id).1

/-- A deletion in the directory of a dead process; the marker goes last. -/
theorem keeps_unlinkAt {file : Name} {answer : Bool} {kept : Name → Prop}
    (permits : Permits tidy condition) (settled : before.Settled tidy)
    (reclaims : Reclaims tidy self name id kept before)
    (acted : acts self (.unlink (.at id file)) before answer after)
    (met : condition self (.unlink (.at id file)) before answer)
    (last : file = ownerMarker → ∀ other, kept other →
      other = ownerMarker) :
    (owning tidy condition).Keeps self (.unlink (.at id file)) before answer
        after ∧
      Reclaims tidy self name id (fun other => kept other ∧
        (other = file → file = ownerMarker)) after := by
  obtain ⟨doomed, left⟩ := reclaims
  obtain ⟨owner, -, creator, dead⟩ := doomed.dead
  rcases World.exec_unlink acted.2.1 with ⟨rfl, same⟩ | ⟨slot, rfl, resolved,
    -, same⟩
  · refine ⟨keeps_of_same settled acted same trivial, ?_, ?_⟩
    · exact doomed.changed acted rfl (by rw [same]) (by rw [same])
        (by rw [same])
    · intro clean other ref found
      rw [same] at found
      refine ⟨left clean other ref found, ?_⟩
      rintro rfl
      by_contra notMarker
      have absent := ((permits _ _ _ _ met).2 clean).2 notMarker
      have there : before.disk.entry (.inside id other) = none := absent
      rw [found] at there
      cases there
  · cases resolved
    obtain ⟨⟨settledAfter, spares⟩, still, -, shrinks⟩ :=
      doomed.unlinks settled acted rfl same fun clean marker other
        different => by
          cases found : before.disk.entry (.inside id other) with
          | none => rfl
          | some ref =>
              exact absurd (last marker other (left clean other ref found))
                different
    refine ⟨⟨settledAfter, spares, ?_⟩, still, ?_⟩
    · intro ref maker found made
      have same := (settled.disk.entries id file ref found).creator
      rw [made, creator] at same
      cases same
      exact dead
    · intro clean other ref found
      obtain ⟨different, present⟩ := shrinks other ref found
      exact ⟨left clean other ref present, fun equal =>
        absurd equal different⟩

/-- The directory goes; only that directory has the name. -/
theorem Doomed.removed {call : Call} {answer : Answer call} {located : Nat}
    (settled : before.Settled tidy) (doomed : Doomed self name id before)
    (acted : acts self call before answer after)
    (found : before.disk.subdirectory name = some located)
    (same : after.disk = before.disk.removeDirectory name) :
    after.Settled tidy ∧ ∀ other, other ≠ self →
      before.alive other = true → before.Spares other after := by
  obtain ⟨examines, owner, -, creator, dead⟩ := doomed
  have linked := Disk.subdirectory_eq_some_iff.mp found
  cases examines.linked _ linked
  have confined : Disk.Confined before.alive self none before.disk
      after.disk := by
    rw [same]
    refine .removeDirectory (by rintro chosen ⟨⟩) ?_
    intro chosen maker there made lives
    cases examines.linked _ there
    rw [creator] at made
    cases made
    rw [dead] at lives
    cases lives
  refine settled.confined acted confined ?_ ?_
    (by rintro chosen candidate ⟨⟩) ?_
  · rw [same]
    exact settled.disk.removeDirectory
  · rw [same]
    exact settled.single
  · intro candidate node there
    rw [same] at there
    exact Or.inl (Disk.lookup_removeDirectory there).2

/-- The directory goes if it is empty. -/
theorem keeps_rmdirAt {answer : Bool} (settled : before.Settled tidy)
    (doomed : Doomed self name id before)
    (acted : acts self (.rmdirAt name) before answer after) :
    (owning tidy condition).Keeps self (.rmdirAt name) before answer after ∧
      after.alive self = true := by
  have living : after.alive self = true := by
    rw [(World.exec_frame acted.2.1).1, doomed.examines.alive]
  rcases World.exec_rmdirAt acted.2.1 with ⟨rfl, same⟩ | ⟨located, rfl,
    found, -, same⟩
  · exact ⟨keeps_of_same settled acted same trivial, living⟩
  obtain ⟨settledAfter, spares⟩ := doomed.removed settled acted found same
  refine ⟨⟨settledAfter, spares, ?_⟩, living⟩
  obtain ⟨examines, owner, -, creator, dead⟩ := doomed
  cases examines.linked _ (Disk.subdirectory_eq_some_iff.mp found)
  intro chosen maker there made
  rw [found] at there
  cases there
  rw [creator] at made
  cases made
  exact dead

/-- A call of an examination. -/
theorem robust_examine {β : Type} {post : β → World → Prop} {call : Call}
    {next : Answer call → Os β} (lingers : call.lingers)
    (holds : Examines self name id before)
    (rest : ∀ middle answer after, middle.Settled tidy →
      Examines self name id middle →
      acts self call middle answer after → Examines self name id after →
        (owning tidy condition).Robust self post (next answer) after) :
    (owning tidy condition).Robust self post (.call call next) before := by
  refine Discipline.Robust.call examines_stable holds ?_
  rintro middle answer after settled examines ⟨acted, -⟩
  exact ⟨keeps_of_quiet lingers.1 settled acted,
    rest middle answer after settled examines acted
      (examines.lingers lingers acted)⟩

/-- What an examination knows about the marker it read. -/
def MarkerRead (process : Process) (name : Name) (id : Nat)
    (content : Option Bytes) (world : World) : Prop :=
  Examines process name id world ∧ ∀ bytes, content = some bytes →
    Testifies process id bytes world

theorem markerRead_stable {content : Option Bytes} :
    (owning tidy condition).Stable self
      (MarkerRead self name id content) := by
  rintro first second settled settledAfter relied ⟨examines, read⟩
  exact ⟨examines_stable first second settled settledAfter relied examines,
    fun bytes same => lasting_testifies.stable first second settled
      settledAfter relied (read bytes same)⟩

/-- Calls that look only, knowing what the marker says. -/
theorem robust_testified {β : Type} {post : β → World → Prop}
    {call : Call} {next : Answer call → Os β} {content : Bytes}
    (lingers : call.lingers)
    (holds : MarkerRead self name id (some content) before)
    (rest : ∀ middle answer after, middle.Settled tidy →
      MarkerRead self name id (some content) middle →
      acts self call middle answer after →
      MarkerRead self name id (some content) after →
        (owning tidy condition).Robust self post (next answer) after) :
    (owning tidy condition).Robust self post (.call call next) before := by
  refine Discipline.Robust.call markerRead_stable holds ?_
  rintro middle answer after settled ⟨examines, read⟩ ⟨acted, -⟩
  refine ⟨keeps_of_quiet lingers.1 settled acted,
    rest middle answer after settled ⟨examines, read⟩ acted
      ⟨examines.lingers lingers acted, fun bytes same => ?_⟩⟩
  exact (read bytes same).rests (rests_of_quiet lingers.1 acted)

theorem OpensMarker.of_open {place : Place} {marker : FileRef}
    (settled : before.Settled tidy) (alive : after.alive self = true)
    (found : before.disk.entry (.inside id ownerMarker) = some marker)
    (acted : acts self (.openRead place) before (some marker) after) :
    OpensMarker self id marker after := by
  have belongs := settled.disk.entries id ownerMarker marker found
  have same := World.exec_disk rfl acted.2.1
  refine ⟨alive, ?_, ?_⟩
  · rw [same]
    exact belongs.file
  · rw [same]
    exact belongs.origin rfl

theorem Testifies.of_read {marker : FileRef} {count : Nat} {content : Bytes}
    (settled : before.Settled tidy) (opens : OpensMarker self id marker before)
    (acted : acts self (.read marker count) before (some content) after) :
    Testifies self id content after := by
  obtain ⟨-, older, owner, created, creator, -, text⟩ :=
    settled.disk.text marker id opens.origin
  obtain ⟨known, born, same, -⟩ := settled.disk.owner id older
  rw [creator] at same
  cases same
  obtain ⟨alive, pids, births, -⟩ := World.exec_frame acted.2.1
  have disk := World.exec_disk rfl acted.2.1
  refine ⟨?_, ?_, owner, ?_, ?_, created, ?_⟩
  · rw [alive, opens.alive]
  · rw [disk]
    exact older
  · rw [births]
    exact born
  · rw [disk, creator]
  · rw [disk, pids, World.exec_read acted.2.1]
    exact (List.take_prefix _ _).trans text

theorem readMarker_robust (examines : Examines self name id before) :
    (owning tidy condition).Robust self (MarkerRead self name id)
      (readMarker (.at id ownerMarker) 159) before := by
  have refuse : ∀ world, Examines self name id world →
      (owning tidy condition).Robust self (MarkerRead self name id)
        (.done none) world := by
    intro world examines
    exact .done markerRead_stable ⟨examines, by rintro bytes ⟨⟩⟩
  simp only [readMarker, Program.perform_bind]
  refine robust_examine ⟨rfl, rfl⟩ examines ?_
  intro middle answer opened settled _ acted examines
  cases answer with
  | none => exact refuse opened examines
  | some marker =>
      have opens : OpensMarker self id marker opened :=
        .of_open settled examines.alive (World.exec_openRead acted.2.1).1 acted
      refine Discipline.Robust.call
        (examines_stable.and lasting_opensMarker.stable) ⟨examines, opens⟩ ?_
      rintro middle content read settled ⟨examines, opens⟩ ⟨acted, -⟩
      refine ⟨keeps_of_quiet rfl settled acted, ?_⟩
      have still := examines.lingers ⟨rfl, rfl⟩ acted
      cases content with
      | none => exact refuse read still
      | some content =>
          have readBack : MarkerRead self name id (some content) read := by
            refine ⟨still, ?_⟩
            rintro _ ⟨⟩
            exact .of_read settled opens acted
          dsimp only
          split
          · exact refuse read still
          refine robust_testified ⟨rfl, rfl⟩ readBack ?_
          intro _ info after _ _ _ readBack
          cases info with
          | none => exact refuse after readBack.1
          | some info =>
              dsimp only
              split
              · exact .done markerRead_stable readBack
              · exact refuse after readBack.1

/-- What a stale directory may contain besides a JAR. -/
def staleKind (jar file : Name) : Prop :=
  file = ownerMarker ∨ file = artifactPart ∨ jar ≠ [] ∧ file = jar

/-- The scan has found nothing but these and the entries to come. -/
structure Scans (process : Process) (name : Name) (id : Nat) (jar : Name)
    (entries : List Name) (world : World) : Prop where
  doomed : Doomed process name id world
  listed : ∀ file ref, world.disk.entry (.inside id file) = some ref →
    artifactName file ∧ (staleKind jar file ∨ file ∈ entries ∨
      file ∈ (world.standing process).missed)

theorem scans_stable {jar : Name} {entries : List Name} :
    (owning tidy condition).Stable self
      (Scans self name id jar entries) := by
  rintro first second settled settledAfter relied ⟨doomed, listed⟩
  refine ⟨doomed_stable first second settled settledAfter relied doomed, ?_⟩
  intro file ref found
  rw [(relied doomed.examines.alive).standing]
  exact listed file ref (doomed.shrinks relied found)

/-- What `stale_owned_directory` found out. -/
def StaleFound (tidy : Prop) (process : Process) (name : Name)
    (jar : Option Name) (world : World) : Prop :=
  world.alive process = true ∧ ∀ found, jar = some found →
    found ≠ ownerMarker ∧
      ∃ id, Reclaims tidy process name id (staleKind found) world

theorem staleFound_stable {jar : Option Name} :
    (owning tidy condition).Stable self (StaleFound tidy self name jar) := by
  rintro first second settled settledAfter relied ⟨alive, found⟩
  refine ⟨(relied alive).alive, fun candidate same => ?_⟩
  obtain ⟨visible, id, reclaims⟩ := found candidate same
  exact ⟨visible, id, reclaims_stable first second settled settledAfter
    relied reclaims⟩

theorem refuse_robust (alive : before.alive self = true) :
    (owning tidy condition).Robust self (StaleFound tidy self name)
      (.done none) before :=
  .done staleFound_stable ⟨alive, by rintro found ⟨⟩⟩

private theorem take_visible {entry : Name} (jar : jarName entry = true) :
    entry.take 255 ≠ ownerMarker := by
  intro same
  have size : (entry.take 255).length = ownerMarker.length := by rw [same]
  have twelve : ownerMarker.length = 12 := rfl
  rw [List.length_take, twelve] at size
  have short : entry.length ≤ 255 := by omega
  rw [List.take_of_length_le short] at same
  rw [same] at jar
  cases jar

theorem artifactName_plain {file : Name} (named : artifactName file) :
    file ≠ [0x2E] ∧ file ≠ [0x2E, 0x2E] := by
  refine ⟨?_, ?_⟩ <;>
  · rintro rfl
    rcases named with marker | part | ⟨jar, -⟩
    · cases marker
    · cases part
    · cases jar

/-- The next entry is accounted for. -/
theorem Scans.skip {jar next entry : Name} {entries : List Name}
    (scans : Scans self name id jar (entry :: entries) before)
    (grows : ∀ file, artifactName file → staleKind jar file →
      staleKind next file)
    (found : artifactName entry → staleKind next entry) :
    Scans self name id next entries before := by
  refine ⟨scans.doomed, fun file ref present => ?_⟩
  obtain ⟨named, kind | member | missed⟩ := scans.listed file ref present
  · exact ⟨named, Or.inl (grows file named kind)⟩
  · rcases List.mem_cons.mp member with rfl | later
    · exact ⟨named, Or.inl (found named)⟩
    · exact ⟨named, Or.inr (Or.inl later)⟩
  · exact ⟨named, Or.inr (Or.inr missed)⟩

theorem staleEntries_robust {jar : Name} {entries : List Name}
    (visible : jar ≠ ownerMarker)
    (scans : Scans self name id jar entries before) :
    (owning tidy condition).Robust self (StaleFound tidy self name)
      (staleEntries id jar entries) before := by
  induction entries generalizing jar before with
  | nil =>
      refine Discipline.Robust.call scans_stable scans ?_
      rintro middle answer after settled ⟨doomed, listed⟩ ⟨acted, -⟩
      have same := World.exec_disk rfl acted.2.1
      have gone := World.exec_endScan acted.2.1
      have still := doomed.changed acted rfl (by rw [same]) (by rw [same])
        (by rw [same])
      refine ⟨keeps_of_quiet rfl settled acted, .done staleFound_stable
        ⟨still.examines.alive, ?_⟩⟩
      rintro _ ⟨⟩
      refine ⟨visible, id, still, fun _ file ref found => ?_⟩
      rw [same] at found
      obtain ⟨-, kind | member | missed⟩ := listed file ref found
      · exact kind
      · cases member
      · refine absurd ?_ (gone file missed)
        exact AList.mem_keys.mp (AList.lookup_isSome.mp
          (Option.isSome_iff_exists.mpr ⟨ref, found⟩))
  | cons entry entries ih =>
      simp only [staleEntries, Program.perform_bind]
      split
      · rename_i skipped
        refine ih visible (scans.skip (fun _ _ kind => kind) fun named => ?_)
        obtain ⟨dot, dots⟩ := artifactName_plain named
        exact Or.inl ((skipped.resolve_left dot).resolve_left dots)
      refine Discipline.Robust.call scans_stable scans ?_
      rintro middle info after settled ⟨doomed, listed⟩ ⟨acted, -⟩
      refine ⟨keeps_of_quiet rfl settled acted, ?_⟩
      have same := World.exec_disk rfl acted.2.1
      have still := doomed.changed acted rfl (by rw [same]) (by rw [same])
        (by rw [same])
      have scans : Scans self name id jar (entry :: entries) after := by
        refine ⟨still, fun file ref found => ?_⟩
        rw [same] at found
        rw [(World.exec_standing acted.2.1).2.2.2 rfl]
        exact listed file ref found
      have refuse : (owning tidy condition).Robust self
          (StaleFound tidy self name) (.done none) after :=
        refuse_robust still.examines.alive
      cases info with
      | none => exact refuse
      | some info =>
          dsimp only
          split
          · exact refuse
          split
          · rename_i part
            exact ih visible (scans.skip (fun _ _ kind => kind)
              fun _ => Or.inr (Or.inl part))
          split
          · exact refuse
          · rename_i accepted
            have single : jarName entry = true ∧ jar = [] := by
              simpa using accepted
            obtain ⟨named, rfl⟩ := single
            refine ih (take_visible named) (scans.skip ?_ ?_)
            · rintro file - (marker | part | ⟨impossible, -⟩)
              · exact Or.inl marker
              · exact Or.inr (Or.inl part)
              · exact absurd rfl impossible
            · rintro (marker | part | ⟨-, short, -⟩)
              · exact Or.inl marker
              · exact Or.inr (Or.inl part)
              · refine Or.inr (Or.inr ⟨take_ne_nil_of_jar named, ?_⟩)
                rw [List.take_of_length_le short]

/-- Where the process of a scanned marker is gone, so is the process that
made the directory. -/
theorem MarkerRead.doomed {content : Bytes} {scanned : Int}
    (settled : before.Settled tidy)
    (read : MarkerRead self name id (some content) before)
    (names : ∀ (pid : Nat) created maker, (pid : Int) ≤ intMax →
      content <+: ownerText pid created maker → scanned = pid)
    (missing : before.hasPid scanned = false) :
    Doomed self name id before := by
  obtain ⟨examines, testifies⟩ := read
  obtain ⟨-, -, owner, born, creator, written, text⟩ :=
    testifies content rfl
  refine ⟨examines, owner, born, creator, ?_⟩
  obtain ⟨-, bounded⟩ := settled.pids owner born
  obtain rfl := names _ _ _ bounded text
  cases alive : before.alive owner with
  | false => rfl
  | true =>
      have present : before.hasPid (before.pidOf owner) = true := by
        rw [World.hasPid, List.any_eq_true]
        exact ⟨owner, List.mem_range.mpr born, by simp [alive]⟩
      rw [missing] at present
      cases present

private theorem pid_of_ownerRecord {content : Bytes} {scanned created : Int}
    (recorded : ownerRecord name content = some (scanned, created))
    (pid : Nat) (written : Int64) (maker : Name) (bounded : (pid : Int) ≤ intMax)
    (text : content <+: ownerText pid written maker) : scanned = pid := by
  have small : pid < 2 ^ 63 := by
    have limit : intMax = 2147483647 := rfl
    omega
  unfold ownerRecord at recorded
  split at recorded
  · rename_i first second marked scans
    split at recorded
    · cases recorded
      exact scanOwner_of_cut small text scans
    · cases recorded
  · cases recorded

/-- The directory a process opens is the one it then stands at. -/
theorem Examines.of_open (settled : before.Settled tidy)
    (acted : acts self (.openDirectory name) before (some id) after) :
    Examines self name id after := by
  obtain ⟨found, working⟩ := World.exec_openDirectory acted.2.1
  have same := World.exec_disk rfl acted.2.1
  have linked := Disk.subdirectory_eq_some_iff.mp (found id rfl)
  obtain ⟨_, node, older, -⟩ := settled.disk.linked name _ linked
  cases node
  refine ⟨?_, working, ?_, ?_⟩
  · rw [(World.exec_frame acted.2.1).1, acted.1]
  · rw [same]
    exact older
  · intro node there
    rw [same, linked] at there
    exact (Option.some.inj there).symm

/-- The directory under examination is opened once more. -/
theorem Doomed.reopened {reopened : Nat}
    (doomed : Doomed self name id before)
    (acted : acts self (.openDirectory name) before (some reopened) after) :
    reopened = id ∧ Doomed self name id after := by
  obtain ⟨found, working⟩ := World.exec_openDirectory acted.2.1
  have same := World.exec_disk rfl acted.2.1
  obtain ⟨alive, -, births, -⟩ := World.exec_frame acted.2.1
  have linked := Disk.subdirectory_eq_some_iff.mp (found reopened rfl)
  cases doomed.examines.linked _ linked
  obtain ⟨⟨living, -, older, only⟩, owner, born, creator, dead⟩ := doomed
  refine ⟨rfl, ⟨?_, working, ?_, ?_⟩, owner, ?_, ?_, ?_⟩
  · rw [alive, living]
  · rw [same]
    exact older
  · rw [same]
    exact only
  · rw [births]
    exact born
  · rw [same, creator]
  · rw [alive, dead]

/-- A scan of the directory of a dead process begins. -/
theorem Doomed.scans {names : List Name} (settled : before.Settled tidy)
    (doomed : Doomed self name id before)
    (acted : acts self (.scan (some id)) before (some names) after) :
    Scans self name id [] names after := by
  have same := World.exec_disk rfl acted.2.1
  refine ⟨doomed.changed acted rfl (by rw [same]) (by rw [same])
    (by rw [same]), fun file ref present => ?_⟩
  rw [same] at present
  have belongs := settled.disk.entries id file ref present
  have listed : file ∈ before.disk.names (some id) :=
    AList.mem_keys.mp (AList.lookup_isSome.mp
      (Option.isSome_iff_exists.mpr ⟨ref, present⟩))
  exact ⟨belongs.named, Or.inr (World.exec_scan acted.2.1 file listed)⟩

theorem staleOwnedDirectory_robust {maxAgeSeconds : Int}
    (alive : before.alive self = true) :
    (owning tidy condition).Robust self (StaleFound tidy self name)
      (staleOwnedDirectory name maxAgeSeconds) before := by
  simp only [staleOwnedDirectory, Program.perform_bind]
  refine Discipline.Robust.call lasting_alive.stable alive ?_
  rintro middle answer opened settled alive ⟨acted, -⟩
  refine ⟨keeps_of_quiet rfl settled acted, ?_⟩
  have living : opened.alive self = true := by
    rw [(World.exec_frame acted.2.1).1, alive]
  cases answer with
  | none => exact refuse_robust living
  | some id =>
      have examines : Examines self name id opened := .of_open settled acted
      dsimp only
      refine robust_examine ⟨rfl, rfl⟩ examines ?_
      intro _ mode after _ _ _ examines
      cases mode with
      | none => exact refuse_robust examines.alive
      | some mode =>
          dsimp only
          split
          · exact refuse_robust examines.alive
          refine Discipline.Robust.bind (readMarker_robust examines) ?_
          rintro content after read
          cases content with
          | none => exact refuse_robust read.1.alive
          | some content =>
              dsimp only
              split
              · exact refuse_robust read.1.alive
              rename_i pid created recorded
              refine robust_testified ⟨rfl, rfl⟩ read ?_
              intro _ now after _ _ _ read
              split
              · exact refuse_robust read.1.alive
              refine robust_testified ⟨rfl, rfl⟩ read ?_
              intro middle killed after settled known acted read
              cases killed with
              | delivered => exact refuse_robust read.1.alive
              | notPermitted => exact refuse_robust read.1.alive
              | noSuchProcess =>
                  have missing := World.exec_kill acted.2.1 (by decide)
                  have doomed := known.doomed settled
                    (pid_of_ownerRecord recorded) missing
                  have same := World.exec_disk rfl acted.2.1
                  have still := doomed.changed acted rfl (by rw [same])
                    (by rw [same]) (by rw [same])
                  dsimp only
                  refine Discipline.Robust.call doomed_stable still ?_
                  rintro middle names after settled doomed ⟨acted, -⟩
                  refine ⟨keeps_of_quiet rfl settled acted, ?_⟩
                  cases names with
                  | none =>
                      refine refuse_robust ?_
                      rw [(World.exec_frame acted.2.1).1]
                      exact doomed.examines.alive
                  | some names =>
                      exact staleEntries_robust (by decide)
                        (doomed.scans settled acted)

private theorem deletions_robust {kept : Name → Prop}
    (permits : Permits tidy condition)
    (few : ∀ file, kept file → file = ownerMarker ∨ file = artifactPart)
    (reclaims : Reclaims tidy self name id kept before) :
    (owning tidy condition).Robust self
      (fun _ world => world.alive self = true)
      (do
        let _ ← sys (.unlink (.at id artifactPart))
        let _ ← sys (.unlink (.at id ownerMarker))
        let _ ← sys (.rmdirAt name)) before := by
  simp only [Program.perform_bind]
  refine Discipline.Robust.call reclaims_stable reclaims ?_
  rintro middle answer after settled reclaims ⟨acted, met⟩
  obtain ⟨keeps, reclaims⟩ := keeps_unlinkAt permits settled reclaims acted
    met fun same => absurd same (by decide)
  refine ⟨keeps, Discipline.Robust.call reclaims_stable reclaims ?_⟩
  rintro middle answer after settled reclaims ⟨acted, met⟩
  have last : ∀ other, kept other ∧
      (other = artifactPart → artifactPart = ownerMarker) →
        other = ownerMarker := by
    rintro other ⟨held, gone⟩
    rcases few other held with marker | part
    · exact marker
    · exact absurd (gone part) (by decide)
  obtain ⟨keeps, reclaims⟩ := keeps_unlinkAt permits settled reclaims acted
    met fun _ => last
  refine ⟨keeps, Discipline.Robust.call doomed_stable reclaims.doomed ?_⟩
  rintro middle answer after settled doomed ⟨acted, -⟩
  obtain ⟨keeps, living⟩ := keeps_rmdirAt settled doomed acted
  exact ⟨keeps, robust_done lasting_alive living⟩

theorem reclaim_robust {jar : Name} (permits : Permits tidy condition)
    (visible : jar ≠ ownerMarker)
    (reclaims : Reclaims tidy self name id (staleKind jar) before) :
    (owning tidy condition).Robust self
      (fun _ world => world.alive self = true) (reclaim name jar)
      before := by
  simp only [reclaim, Program.perform_bind]
  refine Discipline.Robust.call reclaims_stable reclaims ?_
  rintro middle answer after settled ⟨doomed, left⟩ ⟨acted, -⟩
  refine ⟨keeps_of_quiet rfl settled acted, ?_⟩
  have living : after.alive self = true := by
    rw [(World.exec_frame acted.2.1).1, doomed.examines.alive]
  cases answer with
  | none => exact robust_done lasting_alive living
  | some reopened =>
      obtain ⟨rfl, still⟩ := doomed.reopened acted
      have reclaims : Reclaims tidy self name reopened (staleKind jar)
          after := by
        refine ⟨still, ?_⟩
        rw [World.exec_disk rfl acted.2.1]
        exact left
      dsimp only
      split
      · refine Discipline.Robust.call reclaims_stable reclaims ?_
        rintro middle answer after settled reclaims ⟨acted, met⟩
        obtain ⟨keeps, reclaims⟩ := keeps_unlinkAt permits settled reclaims
          acted met fun equal => absurd equal visible
        refine ⟨keeps, deletions_robust permits ?_ reclaims⟩
        rintro file ⟨marker | part | ⟨-, named⟩, gone⟩
        · exact Or.inl marker
        · exact Or.inr part
        · exact absurd (gone named) visible
      · rename_i nothing
        refine deletions_robust permits ?_ reclaims
        rintro file (marker | part | ⟨some, -⟩)
        · exact Or.inl marker
        · exact Or.inr part
        · exact absurd some nothing

theorem cleanupEntries_robust {maxAgeSeconds : Int} {checked : Nat}
    {entries : List Name} (permits : Permits tidy condition)
    (alive : before.alive self = true) :
    (owning tidy condition).Robust self
      (fun _ world => world.alive self = true)
      (cleanupEntries maxAgeSeconds checked entries) before := by
  induction entries generalizing checked before with
  | nil => exact robust_done lasting_alive alive
  | cons entry entries ih =>
      rw [cleanupEntries]
      split
      · split
        · refine Discipline.Robust.bind (staleOwnedDirectory_robust alive) ?_
          rintro jar after ⟨living, found⟩
          cases jar with
          | none => exact ih living
          | some jar =>
              obtain ⟨visible, id, reclaims⟩ := found jar rfl
              exact Discipline.Robust.bind
                (reclaim_robust permits visible reclaims)
                fun _ after living => ih living
        · exact ih alive
      · exact robust_done lasting_alive alive

theorem cleanupStale_robust {maxAgeSeconds : Int}
    (permits : Permits tidy condition) (alive : before.alive self = true) :
    (owning tidy condition).Robust self
      (fun _ world => world.alive self = true) (cleanupStale maxAgeSeconds)
      before := by
  simp only [cleanupStale, Program.perform_bind]
  split
  · exact robust_done lasting_alive alive
  refine robust_quiet lasting_alive alive rfl ?_
  intro _ answer after _ _ _ _ alive
  split
  · exact robust_done lasting_alive alive
  refine robust_quiet lasting_alive alive rfl ?_
  intro _ answer after _ _ _ _ alive
  split
  · exact robust_done lasting_alive alive
  refine robust_quiet lasting_alive alive rfl ?_
  intro _ answer after _ _ _ _ alive
  split
  · exact robust_done lasting_alive alive
  refine robust_quiet lasting_alive alive rfl ?_
  intro _ names after _ _ _ _ alive
  cases names with
  | none => exact robust_done lasting_alive alive
  | some names => exact cleanupEntries_robust permits alive

end

end RymgaLoader.Native
