import RymgaLoader.Native.System

/-!
# What a call leaves alone

Frame facts about single calls: which calls never change the disk, and what
no call changes at all.  The calls that do change the disk are inverted one
by one.
-/

namespace RymgaLoader.Native

/-- Calls that may change the disk. -/
def Call.changesDisk : Call → Bool
  | .mkdtemp | .mkstemp | .createDirectory _ | .openExcl _ | .write _ _ |
    .writeOutput _ _ _ | .unlink _ | .rename _ _ _ | .rmdir _ | .rmdirAt _ | .link _ _ => true
  | _ => false

/-- Calls after which a process may stand at another directory. -/
def Call.movesOn : Call → Bool
  | .rmdirAt _ | .openDirectory _ => true
  | _ => false

/-- Calls that begin the scan of a directory. -/
def Call.scans : Call → Bool
  | .scan _ => true
  | _ => false

namespace World

variable {world after : World} {self : Process}

/-- `rmdir` succeeds on an empty subdirectory only. -/
theorem removeEmptyDirectory_eq_some_iff {name : Name} :
    world.removeEmptyDirectory name = some after ↔
      ∃ id, world.disk.subdirectory name = some id ∧
        (world.disk.directories id).entries.entries = [] ∧
        after = world.withDisk (world.disk.removeDirectory name) := by
  unfold removeEmptyDirectory
  constructor
  · intro removed
    split at removed
    · rename_i id found
      split at removed
      · rename_i empty
        cases removed
        exact ⟨id, found, empty, rfl⟩
      · cases removed
    · cases removed
  · rintro ⟨id, found, empty, rfl⟩
    rw [found]
    exact if_pos empty

/-- No call starts or ends a process. -/
private theorem effect_frame {call : Call} {answer : Answer call}
    (done : world.effect self call answer = some after) :
    after.alive = world.alive ∧ after.pidOf = world.pidOf ∧
      after.born = world.born ∧
      ∀ other, other ≠ self → after.standing other = world.standing other := by
  have standing : ∀ change other, other ≠ self →
      (world.withStanding self change).standing other =
        world.standing other := by
    intro change other different
    exact Function.update_of_ne different _ _
  have same : after = world → after.alive = world.alive ∧
      after.pidOf = world.pidOf ∧ after.born = world.born ∧
      ∀ other, other ≠ self → after.standing other = world.standing other := by
    rintro rfl
    exact ⟨rfl, rfl, rfl, fun _ _ => rfl⟩
  unfold effect at done
  repeat' split at done
  all_goals first
    | (cases done; exact ⟨rfl, rfl, rfl, fun _ _ => rfl⟩)
    | (cases done; exact ⟨rfl, rfl, rfl, standing _⟩)
    | cases done
    | skip
  · obtain ⟨id, -, -, rfl⟩ := removeEmptyDirectory_eq_some_iff.mp done
    exact ⟨rfl, rfl, rfl, fun _ _ => rfl⟩
  · obtain ⟨between, removed, rfl⟩ := Option.map_eq_some_iff.mp done
    obtain ⟨id, -, -, rfl⟩ := removeEmptyDirectory_eq_some_iff.mp removed
    exact ⟨rfl, rfl, rfl, fun other different =>
      Function.update_of_ne different _ _⟩

private theorem effect_disk {call : Call} {answer : Answer call}
    (quiet : call.changesDisk = false)
    (done : world.effect self call answer = some after) :
    after.disk = world.disk := by
  unfold effect at done
  repeat' split at done
  all_goals first
    | (cases done; rfl)
    | (cases quiet; done)
    | cases done

theorem exec_frame {call : Call} {answer : Answer call}
    (done : world.exec self call answer = some after) :
    after.alive = world.alive ∧ after.pidOf = world.pidOf ∧
      after.born = world.born ∧
      ∀ other, other ≠ self → after.standing other = world.standing other := by
  obtain ⟨alive, pids, born, standing⟩ := effect_frame done
  refine ⟨alive, pids, born, fun other different => ?_⟩
  rw [standing other different]
  exact Function.update_of_ne different _ _

theorem exec_disk {call : Call} {answer : Answer call}
    (quiet : call.changesDisk = false)
    (done : world.exec self call answer = some after) :
    after.disk = world.disk := by
  have kept := effect_disk quiet done
  exact kept

private theorem effect_standing {call : Call} {answer : Answer call}
    (done : world.effect self call answer = some after) :
    (after.standing self).artifacts = (world.standing self).artifacts ∧
      (after.standing self).plugins = (world.standing self).plugins ∧
      (call.movesOn = false →
        (after.standing self).working = (world.standing self).working) ∧
      (call.scans = false →
        (after.standing self).missed = (world.standing self).missed) := by
  unfold effect at done
  repeat' split at done
  all_goals first
    | (cases done; exact ⟨rfl, rfl, fun _ => rfl, fun _ => rfl⟩)
    | (cases done
       simp [withStanding, Call.movesOn, Call.scans])
    | cases done
    | skip
  · obtain ⟨id, -, -, rfl⟩ := removeEmptyDirectory_eq_some_iff.mp done
    exact ⟨rfl, rfl, fun _ => rfl, fun _ => rfl⟩
  · obtain ⟨between, removed, rfl⟩ := Option.map_eq_some_iff.mp done
    obtain ⟨id, -, -, rfl⟩ := removeEmptyDirectory_eq_some_iff.mp removed
    simp [withStanding, withDisk, Call.movesOn]

/-- No call changes what its process holds; few change where it stands. -/
theorem exec_standing {call : Call} {answer : Answer call}
    (done : world.exec self call answer = some after) :
    (after.standing self).artifacts = (world.standing self).artifacts ∧
      (after.standing self).plugins = (world.standing self).plugins ∧
      (call.movesOn = false →
        (after.standing self).working = (world.standing self).working) ∧
      (call.scans = false →
        (after.standing self).missed = (world.standing self).missed) := by
  have kept := effect_standing done
  simpa [withStanding] using kept

theorem exec_getpid {answer : Nat}
    (done : world.exec self .getpid answer = some after) :
    answer = world.pidOf self ∧ after.disk = world.disk := by
  refine ⟨?_, exec_disk rfl done⟩
  unfold exec effect at done
  dsimp only at done
  split at done
  · assumption
  · cases done

theorem exec_time {answer : Int64}
    (done : world.exec self .time answer = some after) :
    0 ≤ answer ∧ after.disk = world.disk := by
  refine ⟨?_, exec_disk rfl done⟩
  unfold exec effect at done
  dsimp only at done
  split at done
  · assumption
  · cases done

theorem exec_openRead {place : Place} {ref : FileRef}
    (done : world.exec self (.openRead place) (some ref) = some after) :
    world.disk.lookup place = some ref ∧
      (world.disk.files ref).mode.readable = true := by
  unfold exec effect at done
  dsimp only at done
  split at done
  · rename_i found
    obtain ⟨linked, -, readable⟩ := Disk.openFile_eq_some_iff.mp found
    exact ⟨linked, readable⟩
  · cases done

theorem exec_read {ref : FileRef} {count : Nat} {bytes : Bytes}
    (done : world.exec self (.read ref count) (some bytes) = some after) :
    bytes = (world.disk.files ref).content.take count := by
  unfold exec effect at done
  dsimp only at done
  split at done
  · assumption
  · cases done

theorem exec_fstat {ref : FileRef} {info : Stat}
    (done : world.exec self (.fstat ref) (some info) = some after) :
    info = world.disk.statFile ref := by
  unfold exec effect at done
  dsimp only at done
  split at done
  · assumption
  · cases done

/-- Opening a directory puts the process there, or nowhere. -/
theorem exec_openDirectory {name : Name} {answer : Option Nat}
    (done : world.exec self (.openDirectory name) answer = some after) :
    (∀ id, answer = some id → world.disk.subdirectory name = some id) ∧
      (after.standing self).working = answer.map fun _ => name := by
  unfold exec effect at done
  cases answer with
  | none =>
      cases done
      refine ⟨by rintro id ⟨⟩, ?_⟩
      simp [withStanding]
  | some id =>
      dsimp only at done
      split at done
      · rename_i found
        cases done
        refine ⟨?_, by simp [withStanding]⟩
        rintro _ ⟨⟩
        exact (Disk.openDirectory_eq_some_iff.mp found).1
      · cases done

/-- A scan that misses entries remembers them. -/
theorem exec_scan {directory : Option Nat} {names : List Name}
    (done : world.exec self (.scan directory) (some names) = some after) :
    ∀ name ∈ world.disk.names directory, name ∈ names ∨
      name ∈ (after.standing self).missed := by
  unfold exec effect at done
  cases done
  intro name member
  by_cases listed : name ∈ names
  · exact Or.inl listed
  · refine Or.inr ?_
    simp [withStanding, listed, member]

/-- A scan ends when what it missed is gone. -/
theorem exec_endScan {directory : Option Nat} {answer : Unit}
    (done : world.exec self (.endScan directory) answer = some after) :
    ∀ name ∈ (world.standing self).missed,
      name ∉ world.disk.names directory := by
  unfold exec effect at done
  dsimp only at done
  split at done
  · rename_i gone
    simpa [withStanding] using gone
  · cases done

theorem exec_kill {pid : Int} {result : KillResult}
    (done : world.exec self (.kill pid) result = some after)
    (missing : result ≠ .delivered) : world.hasPid pid = false := by
  unfold exec effect at done
  dsimp only at done
  split at done
  · cases done
  · rename_i possible
    rw [← Bool.not_eq_true]
    exact fun alive => possible ⟨alive, missing⟩

/-- A process that is alive can be found. -/
theorem exec_openProcess {pid : Int}
    (done : world.exec self (.openProcess pid) .failed = some after) :
    world.hasPid pid = false := by
  unfold exec effect at done
  dsimp only at done
  split at done
  · cases done
  · rename_i possible
    rw [← Bool.not_eq_true]
    exact fun alive => possible ⟨alive, rfl⟩

/-- A process that is alive has no exit code yet. -/
theorem exec_exitCode {pid : Int} {code : UInt32}
    (done : world.exec self (.exitCode pid) (some code) = some after)
    (ended : code ≠ stillActive) : world.hasPid pid = false := by
  unfold exec effect at done
  dsimp only at done
  split at done
  · cases done
  · rename_i possible
    rw [← Bool.not_eq_true]
    exact fun alive => possible ⟨alive, ended⟩

theorem exec_random {count : Nat} {bytes : Bytes}
    (done : world.exec self (.random count) bytes = some after) :
    bytes.length = count := by
  unfold exec effect at done
  dsimp only at done
  split at done
  · assumption
  · cases done

theorem exec_mkdtemp {answer : Option Name}
    (done : world.exec self .mkdtemp answer = some after) :
    (answer = none ∧ after.disk = world.disk) ∨
      ∃ name, answer = some name ∧ tempName name = true ∧
        world.disk.root.lookup name = none ∧
        after.disk = world.disk.makeDirectory name self := by
  unfold exec effect at done
  cases answer with
  | none =>
      cases done
      exact Or.inl ⟨rfl, rfl⟩
  | some name =>
      dsimp only at done
      split at done
      · rename_i fresh
        cases done
        exact Or.inr ⟨name, rfl, fresh.1, fresh.2, rfl⟩
      · cases done

theorem exec_mkstemp {answer : Option (Name × FileRef)}
    (done : world.exec self .mkstemp answer = some after) :
    (answer = none ∧ after.disk = world.disk) ∨
      ∃ name ref, answer = some (name, ref) ∧ pluginPartialName name = true ∧
        world.disk.root.lookup name = none ∧ world.disk.Fresh ref ∧
        after.disk = world.disk.create (.top name) ref self := by
  unfold exec effect at done
  rcases answer with - | ⟨name, ref⟩
  · cases done
    exact Or.inl ⟨rfl, rfl⟩
  · dsimp only at done
    split at done
    · rename_i fresh
      cases done
      exact Or.inr ⟨name, ref, rfl, fresh.1, fresh.2.1, fresh.2.2, rfl⟩
    · cases done

theorem exec_createDirectory {name : Name} {answer : DirectoryResult}
    (done : world.exec self (.createDirectory name) answer = some after) :
    (answer ≠ .created ∧ after.disk = world.disk) ∨
      (answer = .created ∧ world.disk.root.lookup name = none ∧
        after.disk = world.disk.makeDirectory name self) := by
  unfold exec effect at done
  cases answer with
  | failed =>
      cases done
      exact Or.inl ⟨by simp, rfl⟩
  | occupied =>
      dsimp only at done
      split at done
      · cases done
      · cases done
        exact Or.inl ⟨by simp, rfl⟩
  | created =>
      dsimp only at done
      split at done
      · rename_i fresh
        cases done
        exact Or.inr ⟨rfl, fresh, rfl⟩
      · cases done

theorem exec_openExcl {place : Place} {answer : OpenResult}
    (done : world.exec self (.openExcl place) answer = some after) :
    ((∀ ref, answer ≠ .opened ref) ∧ after.disk = world.disk) ∨
      ∃ ref slot, answer = .opened ref ∧
        world.disk.resolve place = some slot ∧ world.vacant slot = true ∧
        world.disk.Fresh ref ∧
        after.disk = world.disk.create slot ref self := by
  unfold exec effect at done
  cases answer with
  | failed =>
      cases done
      exact Or.inl ⟨by simp, rfl⟩
  | occupied =>
      dsimp only at done
      split at done
      · split at done
        · cases done
        · cases done
          exact Or.inl ⟨by simp, rfl⟩
      · cases done
  | opened ref =>
      dsimp only at done
      split at done
      · rename_i slot resolved
        split at done
        · rename_i free
          cases done
          exact Or.inr ⟨ref, slot, rfl, resolved, free.1, free.2, rfl⟩
        · cases done
      · cases done

theorem exec_write {ref : FileRef} {bytes : Bytes} {answer : Option Nat}
    (done : world.exec self (.write ref bytes) answer = some after) :
    (answer = none ∧ after.disk = world.disk) ∨
      ∃ count, answer = some count ∧ count ≤ bytes.length ∧
        after.disk = world.disk.append ref (bytes.take count) := by
  unfold exec effect at done
  cases answer with
  | none =>
      cases done
      exact Or.inl ⟨rfl, rfl⟩
  | some count =>
      dsimp only at done
      split at done
      · rename_i bounded
        cases done
        exact Or.inr ⟨count, rfl, bounded, rfl⟩
      · cases done

theorem exec_writeOutput {interruptions : Nat} {ref : FileRef} {bytes : Bytes}
    {answer : Transfer Nat}
    (done : world.exec self (.writeOutput interruptions ref bytes) answer =
      some after) :
    ((∀ count, answer ≠ .completed count) ∧ after.disk = world.disk ∧
        (answer = .interrupted → 0 < interruptions)) ∨
      ∃ count, answer = .completed count ∧ count ≤ bytes.length ∧
        after.disk = world.disk.append ref (bytes.take count) := by
  unfold exec effect at done
  cases answer with
  | failed =>
      cases done
      exact Or.inl ⟨by simp, rfl, by simp⟩
  | interrupted =>
      dsimp only at done
      split at done
      · rename_i more
        cases done
        exact Or.inl ⟨by simp, rfl, fun _ => more⟩
      · cases done
  | completed count =>
      dsimp only at done
      split at done
      · rename_i bounded
        cases done
        exact Or.inr ⟨count, rfl, bounded, rfl⟩
      · cases done

theorem exec_unlink {place : Place} {answer : Bool}
    (done : world.exec self (.unlink place) answer = some after) :
    (answer = false ∧ after.disk = world.disk) ∨
      ∃ slot, answer = true ∧ world.disk.resolve place = some slot ∧
        (world.disk.entry slot).isSome = true ∧
        after.disk = world.disk.detach slot := by
  unfold exec effect at done
  cases answer with
  | false =>
      cases done
      exact Or.inl ⟨rfl, rfl⟩
  | true =>
      dsimp only at done
      split at done
      · rename_i slot resolved
        split at done
        · rename_i present
          cases done
          exact Or.inr ⟨slot, rfl, resolved, present, rfl⟩
        · cases done
      · cases done

theorem exec_rename {directory source target : Name} {answer : Bool}
    (done : world.exec self (.rename directory source target) answer =
      some after) :
    (answer = false ∧ after.disk = world.disk) ∨
      ∃ id ref, answer = true ∧ world.disk.subdirectory directory = some id ∧
        world.disk.entry (.inside id source) = some ref ∧
        after.disk = (world.disk.detach (.inside id source)).attach
          (.inside id target) ref := by
  unfold exec effect at done
  cases answer with
  | false =>
      cases done
      exact Or.inl ⟨rfl, rfl⟩
  | true =>
      dsimp only at done
      split at done
      · rename_i id found
        split at done
        · rename_i ref present
          cases done
          exact Or.inr ⟨id, ref, rfl, found, present, rfl⟩
        · cases done
      · cases done

theorem exec_rmdir {name : Name} {answer : Bool}
    (done : world.exec self (.rmdir name) answer = some after) :
    (answer = false ∧ after.disk = world.disk) ∨
      ∃ id, answer = true ∧ world.disk.subdirectory name = some id ∧
        (world.disk.directories id).entries.entries = [] ∧
        after.disk = world.disk.removeDirectory name := by
  unfold exec effect at done
  cases answer with
  | false =>
      cases done
      exact Or.inl ⟨rfl, rfl⟩
  | true =>
      obtain ⟨id, found, empty, rfl⟩ :=
        removeEmptyDirectory_eq_some_iff.mp done
      exact Or.inr ⟨id, rfl, found, empty, rfl⟩

theorem exec_rmdirAt {name : Name} {answer : Bool}
    (done : world.exec self (.rmdirAt name) answer = some after) :
    (answer = false ∧ after.disk = world.disk) ∨
      ∃ id, answer = true ∧ world.disk.subdirectory name = some id ∧
        (world.disk.directories id).entries.entries = [] ∧
        after.disk = world.disk.removeDirectory name := by
  unfold exec effect at done
  cases answer with
  | false =>
      cases done
      exact Or.inl ⟨rfl, rfl⟩
  | true =>
      obtain ⟨between, removed, rfl⟩ := Option.map_eq_some_iff.mp done
      obtain ⟨id, found, empty, rfl⟩ :=
        removeEmptyDirectory_eq_some_iff.mp removed
      exact Or.inr ⟨id, rfl, found, empty, rfl⟩

theorem exec_link {source target : Name} {answer : Bool}
    (done : world.exec self (.link source target) answer = some after) :
    (answer = false ∧ after.disk = world.disk) ∨
      ∃ ref, answer = true ∧ world.disk.entry (.top source) = some ref ∧
        world.disk.root.lookup target = none ∧
        after.disk = world.disk.attach (.top target) ref := by
  unfold exec effect at done
  cases answer with
  | false =>
      cases done
      exact Or.inl ⟨rfl, rfl⟩
  | true =>
      dsimp only at done
      split at done
      · rename_i ref present
        split at done
        · rename_i free
          cases done
          exact Or.inr ⟨ref, rfl, present, free, rfl⟩
        · cases done
      · cases done

end World

/-- A process whose calls nobody interferes with, under a condition on their
outcomes. -/
def alone (self : Process)
    (allowed : (call : Call) → World → Answer call → Prop) :
    Program.Semantics Call Answer World :=
  fun call before answer after =>
    before.exec self call answer = some after ∧ allowed call before answer

/-- The process is not inside a directory scan. -/
def World.Idle (world : World) (self : Process) : Prop :=
  (world.standing self).missed = []

theorem World.Idle.exec {world after : World} {self : Process} {call : Call}
    {answer : Answer call} (ready : world.Idle self)
    (done : world.exec self call answer = some after)
    (unscanned : call.scans = false) : after.Idle self := by
  rw [World.Idle, (World.exec_standing done).2.2.2 unscanned]
  exact ready

/-- An answer every call can give: memory and libraries are available, and
the disk stays as it is. -/
def World.plainAnswer (world : World) (self : Process) :
    (call : Call) → Answer call
  | .allocate | .setup | .directoryOk | .makeDirectory | .openRoot |
    .duplicate | .chmod | .openInput | .fsync _ | .close => true
  | .unlink _ | .rename _ _ _ | .rmdir _ | .rmdirAt _ | .link _ _ => false
  | .duplicatePaths => (true, true)
  | .time => 0
  | .getpid => world.pidOf self
  | .kill _ => .delivered
  | .openProcess _ => .accessDenied
  | .random count => List.replicate count 0
  | .openExcl _ => .failed
  | .createDirectory _ => .failed
  | .scan directory => some (world.disk.names directory)
  | .readInput _ _ | .writeOutput _ _ _ => .failed
  | .mkdtemp | .mkstemp | .write _ _ | .exitCode _ | .openDirectory _ |
    .statDirectory _ | .openRead _ | .read _ _ | .fstat _ | .fstatat _ => none
  | .endScan _ | .note _ => ()

theorem World.exists_exec_plainAnswer {world : World} {self : Process}
    (idle : world.Idle self) (call : Call) :
    ∃ after, world.exec self call (world.plainAnswer self call) = some after ∧
      after.Idle self := by
  have settled : ∀ change : Standing → Standing,
      (∀ standing, standing.missed = [] → (change standing).missed = []) →
      (world.withStanding self change).Idle self := by
    intro change keeps
    simp [Idle, withStanding, keeps _ idle]
  have rested := settled (fun standing => { standing with checked := none })
    fun standing none => none
  cases call
  case random count =>
      exact ⟨_, by simp [exec, effect, plainAnswer], rested⟩
  case getpid =>
      exact ⟨_, by simp [exec, effect, plainAnswer, withStanding], rested⟩
  case kill pid =>
      exact ⟨_, by simp [exec, effect, plainAnswer], rested⟩
  case openProcess pid =>
      exact ⟨_, by simp [exec, effect, plainAnswer], rested⟩
  case endScan directory =>
      refine ⟨_, ?_, rested⟩
      have missed : ((world.withStanding self fun standing =>
          { standing with checked := none }).standing self).missed = [] :=
        rested
      simp only [exec, effect]
      rw [if_pos]
      simp [missed]
  case scan directory =>
      refine ⟨_, rfl, ?_⟩
      simp [Idle, withStanding]
  case rmdirAt name =>
      refine ⟨_, rfl, ?_⟩
      simpa [Idle, withStanding] using idle
  case openDirectory name =>
      refine ⟨_, rfl, ?_⟩
      simpa [Idle, withStanding] using idle
  case note inode =>
      refine ⟨_, rfl, ?_⟩
      simpa [Idle, withStanding] using idle
  case time =>
      refine ⟨_, rfl, ?_⟩
      simpa [Idle, withStanding] using idle
  all_goals exact ⟨_, rfl, rested⟩

/-- Runs in which memory is always available. -/
def allocating (call : Call) (_ : World) (answer : Answer call) : Prop :=
  match call, answer with
  | .allocate, answer => answer = true
  | _, _ => True

theorem exists_runs_allocating (self : Process) (program : Os α)
    {before : World} (idle : before.Idle self) :
    ∃ value after, Program.Runs (alone self allocating) program before value
      after := by
  have total : ∀ call (world : World), world.Idle self → ∃ answer after,
      alone self allocating call world answer after ∧ after.Idle self := by
    intro call world ready
    obtain ⟨after, done, readyAfter⟩ :=
      World.exists_exec_plainAnswer ready call
    refine ⟨_, after, ⟨done, ?_⟩, readyAfter⟩
    cases call <;> trivial
  obtain ⟨value, after, run, -⟩ := Program.exists_runs total program idle
  exact ⟨value, after, run⟩

theorem wp_quiet {self : Process}
    {allowed : (call : Call) → World → Answer call → Prop} {call : Call}
    {next : Answer call → Os α} {post : α → World → Prop} {before : World}
    (quiet : call.changesDisk = false)
    (rest : ∀ answer after, allowed call before answer →
      after.disk = before.disk →
        Program.wp (alone self allowed) (next answer) post after) :
    Program.wp (alone self allowed) (.call call next) post before := by
  intro answer after answered
  exact rest answer after answered.2 (World.exec_disk quiet answered.1)

end RymgaLoader.Native
