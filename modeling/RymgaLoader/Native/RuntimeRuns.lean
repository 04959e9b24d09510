import RymgaLoader.Lib.Schedule
import RymgaLoader.Native.Guarantees
import RymgaLoader.Native.SharedCleanup
import RymgaLoader.Native.SharedDownload

/-!
# Runs of a runtime directory

The discipline of the processes is sound.  In every run in which `mkdtemp`
returns no name that a cleanup stands at, a cleanup deletes only what dead
processes made.
-/

namespace RymgaLoader.Native

open Interleaving

section

variable {tidy : Prop}
  {condition : Process → (call : Call) → World → Answer call → Prop}
  {self : Process} {before after : World}

/-- The process changes what it holds. -/
theorem World.Settled.withStanding (settled : before.Settled tidy)
    {change : Standing → Standing}
    (held : ∀ artifact ∈ (change (before.standing self)).artifacts,
      before.Holds self artifact)
    (distinct : (change (before.standing self)).artifacts.Pairwise
      fun first second => first.directory ≠ second.directory) :
    (before.withStanding self change).Settled tidy := by
  have own : (before.withStanding self change).standing self =
      change (before.standing self) := Function.update_self _ _ _
  have others : ∀ process, process ≠ self →
      (before.withStanding self change).standing process =
        before.standing process :=
    fun process different => Function.update_of_ne different _ _
  refine ⟨settled.disk, settled.single, settled.born, settled.pids, ?_, ?_⟩
  · intro process living artifact member
    by_cases same : process = self
    · subst same
      rw [own] at member
      exact held artifact member
    · rw [others process same] at member
      exact settled.held process living artifact member
  · intro process living
    by_cases same : process = self
    · subst same
      rw [own]
      exact distinct
    · rw [others process same]
      exact settled.distinct process living

private theorem spares_withStanding {change : Standing → Standing}
    {other : Process} (different : other ≠ self)
    (living : before.alive other = true) :
    before.Spares other (before.withStanding self change) where
  standing := Function.update_of_ne different _ _
  alive := living
  dead _ _ dead := dead
  born := Nat.le_refl _
  pids _ _ := rfl
  disk := .refl _
  roots _ _ _ found := found

private theorem spares_of_eq {clock : Int64} {alive : Process → Bool}
    {other : Process} (living : alive other = true)
    (dead : ∀ process, before.alive process = false →
      alive process = false) :
    before.Spares other { before with clock, alive } where
  standing := rfl
  alive := living
  dead process _ gone := dead process gone
  born := Nat.le_refl _
  pids _ _ := rfl
  disk := .refl _
  roots _ _ _ found := found

/-- A new process has nothing yet. -/
theorem World.Settled.spawn {pid : Nat} (settled : before.Settled tidy)
    (positive : 0 < pid) (small : (pid : Int) ≤ intMax) :
    (before.spawn pid).Settled tidy := by
  have pids : ∀ process < before.born,
      (before.spawn pid).pidOf process = before.pidOf process := by
    intro process older
    exact Function.update_of_ne older.ne _ _
  have owned : ∀ id owner,
      (before.disk.directories id).creator = some owner →
      id < before.disk.nextDirectory →
        (before.spawn pid).pidOf owner = before.pidOf owner := by
    intro id owner creator older
    obtain ⟨known, born, same, -⟩ := settled.disk.owner id older
    rw [creator] at same
    cases same
    exact pids owner born
  have old : ∀ process, process ≠ before.born →
      (before.spawn pid).alive process = before.alive process ∧
      (before.spawn pid).standing process = before.standing process := by
    intro process different
    exact ⟨Function.update_of_ne different _ _,
      Function.update_of_ne different _ _⟩
  have fresh : ((before.spawn pid).standing before.born).artifacts = [] := by
    simp [World.spawn]
  refine ⟨⟨settled.disk.linked, ?_, settled.disk.entries, ?_, ?_⟩,
    settled.single, ?_, ?_, ?_, ?_⟩
  · intro id older
    obtain ⟨owner, born, creator, rest⟩ := settled.disk.owner id older
    exact ⟨owner, Nat.lt_succ_of_lt born, creator, rest⟩
  · intro ref id origin
    obtain ⟨index, older, owner, created, creator, epoch, text⟩ :=
      settled.disk.text ref id origin
    refine ⟨index, older, owner, created, creator, epoch, ?_⟩
    rw [owned id owner creator older]
    exact text
  · intro clean id file ref found different
    obtain ⟨marker, linked, owner, created, creator, epoch, text⟩ :=
      settled.disk.sealed clean id file ref found different
    have older := (settled.disk.entries id file ref found).directory
    refine ⟨marker, linked, owner, created, creator, epoch, ?_⟩
    rw [owned id owner creator older]
    exact text
  · intro process living
    by_cases same : process = before.born
    · rw [same]
      exact Nat.lt_succ_self _
    · rw [(old process same).1] at living
      exact Nat.lt_succ_of_lt (settled.born process living)
  · intro process older
    by_cases same : process = before.born
    · subst same
      have chosen : (before.spawn pid).pidOf before.born = pid :=
        Function.update_self _ _ _
      rw [chosen]
      exact ⟨positive, small⟩
    · have born : process < before.born :=
        Nat.lt_of_le_of_ne (Nat.le_of_lt_succ older) same
      rw [pids process born]
      exact settled.pids process born
  · intro process living artifact member
    by_cases same : process = before.born
    · subst same
      rw [fresh] at member
      cases member
    · rw [(old process same).1] at living
      rw [(old process same).2] at member
      exact settled.held process living artifact member
  · intro process living
    by_cases same : process = before.born
    · subst same
      rw [fresh]
      exact List.Pairwise.nil
    · rw [(old process same).1] at living
      rw [(old process same).2]
      exact settled.distinct process living

private theorem spares_spawn {pid : Nat} {other : Process}
    (settled : before.Settled tidy) (living : before.alive other = true) :
    before.Spares other (before.spawn pid) where
  standing := Function.update_of_ne (settled.born other living).ne _ _
  alive := (Function.update_of_ne (settled.born other living).ne _ _).trans
    living
  dead _ older dead :=
    (Function.update_of_ne older.ne _ _).trans dead
  born := Nat.le_succ _
  pids _ older := Function.update_of_ne older.ne _ _
  disk := .refl _
  roots _ _ _ found := found

/-- An artifact that is given up is in a directory of the process that has no
other artifact in it. -/
private theorem owns_of_released {artifact : Artifact}
    (settled : before.Settled tidy) (alive : before.alive self = true)
    (member : artifact ∈ (before.standing self).artifacts) :
    ∃ name file, artifact = ⟨some name, some (name, file)⟩ ∧
      ∃ id entries, MarkerAnd file entries ∧
        Owns self (before.pidOf self) name id entries
          (before.withStanding self fun standing =>
            { standing with
              artifacts := standing.artifacts.erase artifact }) := by
  obtain ⟨name, id, file, shape, linked, creator, only⟩ :=
    settled.held self alive artifact member
  have apart : ∀ other ∈ (before.standing self).artifacts.erase artifact,
      artifact.directory ≠ other.directory := by
    have sorted := (List.Perm.pairwise_iff (fun different => Ne.symm different)
      (List.perm_cons_erase member)).mp (settled.distinct self alive)
    exact (List.pairwise_cons.mp sorted).1
  refine ⟨name, file, shape, id,
    fun entry => before.disk.entry (.inside id entry), only,
    alive, rfl, linked, creator, fun _ => rfl, ?_⟩
  intro other kept
  simp only [World.withStanding, Function.update_self] at kept
  have different := apart other kept
  rw [shape] at different
  exact different.symm

/-- A job that begins leaves the others alone. -/
theorem World.Settled.begin {job : RuntimeJob} (settled : before.Settled tidy)
    (alive : before.alive self = true)
    (begins : job.Begins self before after) :
    after.Settled tidy ∧ ∀ other, other ≠ self →
      before.alive other = true → before.Spares other after := by
  cases job with
  | download sodium q m encodedManifest network =>
      obtain ⟨-, rfl⟩ := begins
      exact ⟨settled, fun other _ living =>
        spares_of_eq living fun _ dead => dead⟩
  | release runtimeDirectory artifact =>
      obtain ⟨-, rfl⟩ := begins
      have still : ∀ other ∈ (before.standing self).artifacts.erase
          artifact, other ∈ (before.standing self).artifacts :=
        fun other kept => List.mem_of_mem_erase kept
      exact ⟨settled.withStanding (fun other kept => settled.held self alive
        other (still other kept)) ((settled.distinct self alive).sublist
          List.erase_sublist), fun other different living =>
            spares_withStanding different living⟩
  | cleanup =>
      obtain rfl := begins
      exact ⟨settled, fun other _ living =>
        spares_of_eq living fun _ dead => dead⟩

/-- What a job returned is held by the process. -/
theorem World.Settled.collect {returned : Option Artifact}
    (settled : before.Settled tidy) (collects : Collects self returned before) :
    (before.collect self returned).Settled tidy ∧ ∀ other, other ≠ self →
      before.alive other = true →
        before.Spares other (before.collect self returned) := by
  obtain ⟨alive, published⟩ := collects
  refine ⟨settled.withStanding ?_ ?_, fun other different living =>
    spares_withStanding different living⟩
  · intro artifact member
    rcases List.mem_append.mp member with mine | older
    · obtain ⟨name, file, rfl, pid, id, entries, only, owns⟩ :=
        published artifact (Option.mem_toList.mp mine)
      refine ⟨name, id, file, rfl, owns.linked, owns.creator, ?_⟩
      intro entry ref found
      rw [owns.entries] at found
      exact only entry ref found
    · exact settled.held self alive artifact older
  · refine List.pairwise_append.mpr ⟨?_, settled.distinct self alive, ?_⟩
    · cases returned <;> simp
    · intro artifact mine older member
      obtain ⟨name, file, rfl, pid, id, entries, only, owns⟩ :=
        published artifact (Option.mem_toList.mp mine)
      exact (owns.unheld older member).symm

/-- A process that ends leaves the others alone. -/
theorem World.Settled.ended (settled : before.Settled tidy)
    (ends : Ends self before after) :
    after.Settled tidy ∧ ∀ other, other ≠ self →
      before.alive other = true → before.Spares other after := by
  obtain ⟨alive, rfl⟩ := ends
  have gone : ∀ process, Function.update before.alive self false process =
      true → process ≠ self ∧ before.alive process = true := by
    intro process living
    by_cases same : process = self
    · rw [same, Function.update_self] at living
      cases living
    · rw [Function.update_of_ne same] at living
      exact ⟨same, living⟩
  refine ⟨⟨settled.disk, settled.single, ?_, settled.pids, ?_, ?_⟩, ?_⟩
  · exact fun process living => settled.born process (gone process living).2
  · exact fun process living => settled.held process (gone process living).2
  · exact fun process living =>
      settled.distinct process (gone process living).2
  · intro other different living
    refine spares_of_eq ?_ fun process dead => ?_
    · rw [Function.update_of_ne different, living]
    · by_cases same : process = self
      · rw [same, Function.update_self]
      · rw [Function.update_of_ne same, dead]

/-- So do a new process and the clock. -/
theorem World.Settled.passes (settled : before.Settled tidy)
    (changed : Spawns before after ∨ Ticks before after) :
    after.Settled tidy ∧ ∀ other, before.alive other = true →
      before.Spares other after := by
  rcases changed with ⟨pid, positive, small, -, rfl⟩ | ⟨now, -, rfl⟩
  · exact ⟨settled.spawn positive small, fun other living =>
      spares_spawn settled living⟩
  · exact ⟨⟨settled.disk, settled.single, settled.born, settled.pids,
      settled.held, settled.distinct⟩, fun other living =>
        spares_of_eq living fun _ dead => dead⟩

/-- A process releases an artifact it held. -/
theorem Platform.release_robust {platform : Platform}
    {runtimeDirectory : Bytes} {artifact : Artifact}
    (permits : Permits tidy condition) (settled : before.Settled tidy)
    (alive : before.alive self = true)
    (member : artifact ∈ (before.standing self).artifacts)
    (reaches : platform.ReachesArtifact runtimeDirectory artifact) :
    (owning tidy condition).Robust self
      (fun _ world => world.alive self = true)
      (platform.artifactRelease runtimeDirectory artifact)
      (before.withStanding self fun standing =>
        { standing with artifacts := standing.artifacts.erase artifact }) := by
  obtain ⟨name, file, rfl, id, entries, only, owns⟩ :=
    owns_of_released settled alive member
  exact Platform.artifactRelease_robust permits (reaches name file rfl) only
    owns

theorem owning_sound (permits : Permits tidy condition) :
    (owning tidy condition).Sound Collects where
  start := by
    rintro self program before after settled ⟨alive, job, rfl, begins⟩
    obtain ⟨settledAfter, spares⟩ := settled.begin alive begins
    refine ⟨settledAfter, spares, ?_⟩
    cases job with
    | download sodium q m encodedManifest network =>
        obtain ⟨parsed, rfl⟩ := begins
        refine Discipline.Robust.bind (Platform.downloadArtifact_robust
          permits (fun _ _ => makeTempDirectory_robust permits) parsed
          alive) ?_
        rintro returned world ⟨collects, -⟩
        exact robust_done lasting_collects collects
    | release runtimeDirectory artifact =>
        obtain ⟨member, rfl⟩ := begins
        refine Discipline.Robust.bind (Platform.release_robust permits
          settled alive member fun _ _ _ => rfl) ?_
        intro _ world alive
        exact robust_done lasting_collects (collects_none alive)
    | cleanup =>
        obtain rfl := begins
        refine Discipline.Robust.bind (cleanupStale_robust permits alive) ?_
        intro _ world alive
        exact robust_done lasting_collects (collects_none alive)
  finish := by
    rintro self returned before after settled collects rfl
    exact settled.collect collects
  stop _ _ _ settled ends := settled.ended ends
  other _ _ settled changed := settled.passes changed

theorem World.initial_settled : World.initial.Settled tidy where
  disk := by
    refine ⟨?_, ?_, ?_, ?_, ?_⟩
    · intro name node found
      simp [World.initial] at found
    · intro id older
      cases older
    · intro id name ref found
      simp [World.initial, Disk.entry] at found
    · intro ref id origin
      cases origin
    · intro _ id name ref found
      simp [World.initial, Disk.entry] at found
  single := by
    intro id first second ref other found
    simp [World.initial, Disk.entry] at found
  born process living := by cases living
  pids process older := by cases older
  held process living := by cases living
  distinct process living := by cases living

end

variable {configuration : Configuration Process Call Answer (Option Artifact)
  World}

/-- Only processes that have started are alive. -/
def World.Counted (world : World) : Prop :=
  ∀ process, world.alive process = true → process < world.born

theorem counted_of_started
    {condition : Process → (call : Call) → World → Answer call → Prop}
    {start : Process → Os (Option Artifact) → World → World → Prop}
    (begins : ∀ self program before after, start self program before after →
      ∃ job : RuntimeJob, job.Begins self before after)
    (reached : Reachable (({ runtime with start } : System Process Call Answer
      (Option Artifact) World).under condition) World.initial configuration) :
    configuration.state.Counted := by
  intro process living
  induction reached with
  | initial => cases living
  | @step before after earlier step ih =>
      cases step with
      | act active acted =>
          obtain ⟨alive, -, born, -⟩ := World.exec_frame acted.1.2.1
          rw [alive] at living
          rw [born]
          exact ih living
      | start idle started =>
          obtain ⟨job, begins⟩ := begins _ _ _ _ started
          cases job with
          | download sodium q m encodedManifest network =>
              obtain ⟨-, rfl⟩ := begins
              exact ih living
          | release runtimeDirectory artifact =>
              obtain ⟨-, rfl⟩ := begins
              exact ih living
          | cleanup =>
              obtain rfl := begins
              exact ih living
      | finish active finished =>
          obtain rfl := finished
          exact ih living
      | @stop actor after stopped =>
          obtain ⟨-, rfl⟩ := stopped
          dsimp only at living ⊢
          by_cases same : process = actor
          · subst same
            rw [Function.update_self] at living
            cases living
          · rw [Function.update_of_ne same] at living
            exact ih living
      | other changed =>
          rcases changed with ⟨pid, -, -, -, rfl⟩ | ⟨now, -, rfl⟩
          · by_cases same : process = before.state.born
            · rw [same]
              exact Nat.lt_succ_self _
            · have older : (before.state.spawn pid).alive process =
                  before.state.alive process :=
                Function.update_of_ne same _ _
              rw [older] at living
              exact Nat.lt_succ_of_lt (ih living)
          · exact ih living

theorem counted_of_reachable
    {condition : Process → (call : Call) → World → Answer call → Prop}
    (reached : Reachable (runtime.under condition) World.initial
      configuration) : configuration.state.Counted :=
  counted_of_started (fun _ _ _ _ ⟨_, job, _, begins⟩ => ⟨job, begins⟩) reached

/-- The jobs of a schedule: the small artifact is downloaded, the artifact
held last is released, or stale directories are cleaned up. -/
inductive SmallJob
  | download
  | release
  | cleanup

/-- The events of a schedule besides jobs. -/
inductive SmallEvent
  | spawn (pid : Nat)
  | tick (now : Int64)

def smallReply : Reply := ⟨[[1, 2, 3]], true, 200⟩

/-- The job and the world after it has begun. -/
def SmallJob.begin (job : SmallJob) (self : Process) (world : World) :
    Option (RuntimeJob × World) :=
  if world.alive self then
    match job with
    | .download => (parseManifest smallManifest.layout).map fun m =>
        (.download smallSodium smallRequest m smallManifest.layout
          fun _ => smallReply, world)
    | .release =>
        match (world.standing self).artifacts with
        | [] => none
        | artifact :: _ =>
            some (.release smallRequest.runtimeDirectory artifact,
              world.withStanding self fun standing =>
                { standing with
                  artifacts := standing.artifacts.erase artifact })
    | .cleanup => some (.cleanup, world)
  else none

theorem SmallJob.begins {small : SmallJob} {self : Process}
    {before after : World} {job : RuntimeJob}
    (begun : small.begin self before = some (job, after)) :
    before.alive self = true ∧ job.Uses smallRequest.runtimeDirectory ∧
      job.Begins self before after := by
  unfold SmallJob.begin at begun
  split at begun
  · rename_i living
    refine ⟨living, ?_⟩
    cases small with
    | download =>
        obtain ⟨m, parsed, same⟩ := Option.map_eq_some_iff.mp begun
        cases same
        exact ⟨rfl, parsed, rfl⟩
    | release =>
        dsimp only at begun
        split at begun
        · cases begun
        · rename_i artifact rest shape
          cases begun
          refine ⟨rfl, ?_, rfl⟩
          rw [shape]
          exact List.mem_cons_self
    | cleanup =>
        cases begun
        exact ⟨trivial, rfl⟩
  · cases begun

/-- The driver that gives each call the answer chosen for it. -/
def runtimeDriver : Driver runtime
    (Process → World → (call : Call) → Answer call) SmallJob SmallEvent where
  start self job world := (job.begin self world).map fun (chosen, after) =>
    (chosen.program, after)
  call self choice call world :=
    if world.alive self then
      ((world.exec self call (choice self world call)).filter fun after =>
        world.clock ≤ after.clock).map (choice self world call, ·)
    else none
  finish self artifact world := some (world.collect self artifact)
  stop self world :=
    if world.alive self then
      some { world with alive := Function.update world.alive self false }
    else none
  other event world :=
    match event with
    | .spawn pid =>
        if 0 < pid ∧ (pid : Int) ≤ intMax ∧ world.hasPid pid = false then
          some (world.spawn pid)
        else none
    | .tick now =>
        if world.clock ≤ now then some { world with clock := now } else none
  started := by
    intro self job before program after begun
    obtain ⟨⟨chosen, world⟩, begun, same⟩ := Option.map_eq_some_iff.mp begun
    cases same
    obtain ⟨living, -, begins⟩ := SmallJob.begins begun
    exact ⟨living, chosen, rfl, begins⟩
  called := by
    intro self choice call before answer after answered
    split at answered
    · rename_i living
      obtain ⟨world, kept, same⟩ := Option.map_eq_some_iff.mp answered
      cases same
      obtain ⟨done, later⟩ := Option.filter_eq_some_iff.mp kept
      exact ⟨living, done, of_decide_eq_true later⟩
    · cases answered
  finished := by
    intro self artifact before after done
    exact (Option.some.inj done).symm
  stopped := by
    intro self before after halted
    split at halted
    · rename_i living
      cases halted
      exact ⟨living, rfl⟩
    · cases halted
  changed := by
    intro event before after happened
    cases event with
    | spawn pid =>
        dsimp only at happened
        split at happened
        · rename_i free
          cases happened
          exact Or.inl ⟨pid, free.1, free.2.1, free.2.2, rfl⟩
        · cases happened
    | tick now =>
        dsimp only at happened
        split at happened
        · rename_i later
          cases happened
          exact Or.inr ⟨now, later, rfl⟩
        · cases happened

abbrev RuntimeMove := Move Process
  (Process → World → (call : Call) → Answer call) SmallJob SmallEvent

/-- A process makes a number of calls, and everything possible succeeds. -/
def obliged (self : Process) (count : Nat) : List RuntimeMove :=
  List.replicate count (.call self fun self world => world.obliging self)

/-- A new process makes a directory and its marker. -/
def marking (self : Process) (pid : Nat) : List RuntimeMove :=
  .other (.spawn pid) :: .start self .download :: obliged self 9

/-- A new process makes a number of calls of a cleanup. -/
def cleaning (self : Process) (pid count : Nat) : List RuntimeMove :=
  .other (.spawn pid) :: .start self .cleanup :: obliged self count

/-- The first process dies with a directory, and a day goes by. -/
def abandoning : List RuntimeMove :=
  marking 0 1 ++ [.stop 0, .other (.tick 86400)]

/-- The entry of an open directory that the process is about to delete. -/
def deletes (configuration : Configuration Process Call Answer
    (Option Artifact) World) (self : Process) : Option (Nat × Name) :=
  match configuration.running self with
  | some (.call (.unlink (.at id name)) _) => some (id, name)
  | _ => none

theorem running_of_deletes {self : Process} {id : Nat} {name : Name}
    (shown : deletes configuration self = some (id, name)) :
    ∃ next, configuration.running self =
      some (.call (.unlink (.at id name)) next) := by
  unfold deletes at shown
  split at shown
  · rename_i next active
    cases shown
    exact ⟨next, active⟩
  · cases shown

/-- `namesUnshared` for the processes that have started. -/
def startedUnshared (_ : Process) (call : Call) (world : World)
    (answer : Answer call) : Prop :=
  match call, answer with
  | .mkdtemp, some name => ∀ process < world.born,
      world.alive process = true →
        (world.standing process).working ≠ some name
  | _, _ => True

instance (self : Process) (call : Call) (world : World)
    (answer : Answer call) :
    Decidable (startedUnshared self call world answer) := by
  unfold startedUnshared
  split <;> infer_instance

/-- Whether the answer deletes what `artifactsDeletable` says it must. -/
def deletesArtifact (call : Call) (world : World) (answer : Answer call) :
    Bool :=
  match call, answer with
  | .unlink place, deleted => deleted || place.name == ownerMarker ||
      (world.disk.lookup place).isNone
  | .duplicatePaths, (directoryCopied, pathCopied) =>
      !directoryCopied || pathCopied
  | _, _ => true

private theorem deletesArtifact_iff {call : Call} {world : World}
    {answer : Answer call} : deletesArtifact call world answer = true ↔
      artifactsDeletable call world answer := by
  cases call with
  | unlink place =>
      cases answer with
      | false =>
          simp [deletesArtifact, artifactsDeletable, or_iff_not_imp_left]
      | true => simp [deletesArtifact, artifactsDeletable]
  | duplicatePaths =>
      obtain ⟨directoryCopied, pathCopied⟩ := answer
      cases directoryCopied <;> simp [deletesArtifact, artifactsDeletable]
  | _ => simp [deletesArtifact, artifactsDeletable]

instance (call : Call) (world : World) (answer : Answer call) :
    Decidable (artifactsDeletable call world answer) :=
  decidable_of_iff _ deletesArtifact_iff

private theorem namesUnshared_of_started {self : Process} {call : Call}
    {world : World} {answer : Answer call} (counted : world.Counted)
    (started : startedUnshared self call world answer) :
    namesUnshared self call world answer := by
  unfold startedUnshared at started
  split at started
  · rename_i name
    exact fun process living =>
      started process (counted process living) living
  · rename_i other
    unfold namesUnshared
    split
    · exact (other _ rfl HEq.rfl).elim
    · trivial

theorem unshared_of_started
    (reached : Reachable (runtime.under startedUnshared) World.initial
      configuration) :
    Reachable (runtime.under namesUnshared) World.initial configuration :=
  Reachable.under_mono (fun _ => counted_of_reachable)
    (fun _ _ _ _ => namesUnshared_of_started) reached

/-- `filesDeletable` for the processes that have started. -/
def startedDeletable (self : Process) (call : Call) (world : World)
    (answer : Answer call) : Prop :=
  startedUnshared self call world answer ∧
    artifactsDeletable call world answer

instance (self : Process) (call : Call) (world : World)
    (answer : Answer call) :
    Decidable (startedDeletable self call world answer) :=
  inferInstanceAs (Decidable (_ ∧ _))

theorem filesDeletable_of_started {self : Process} {call : Call}
    {world : World} {answer : Answer call} (counted : world.Counted)
    (started : startedDeletable self call world answer) :
    filesDeletable self call world answer :=
  ⟨namesUnshared_of_started counted started.1, started.2⟩

theorem deletable_of_started
    (reached : Reachable (runtime.under startedDeletable) World.initial
      configuration) :
    Reachable (runtime.under filesDeletable) World.initial configuration :=
  Reachable.under_mono (fun _ => counted_of_reachable)
    (fun _ _ _ _ => filesDeletable_of_started) reached

/-- In every run in which `mkdtemp` returns no name that a cleanup stands at,
no call of a cleanup deletes a file or removes a directory of a live process;
no other call deletes what a process holds. -/
theorem cleanup_sparesLiving
    (reached : Reachable (runtime.under namesUnshared) World.initial
      configuration) {self : Process} {call : Call}
    {next : Answer call → Os (Option Artifact)} {answer : Answer call}
    {after : World}
    (active : configuration.running self = some (.call call next))
    (acted : (runtime.under namesUnshared).act self call configuration.state
      answer after) : sparesLiving self call configuration.state answer := by
  have permits : Permits False namesUnshared :=
    fun _ _ _ _ met => ⟨met, False.elim⟩
  exact (owning_sound permits).good World.initial_settled reached active acted

/-- A cleanup is about to delete the marker that a dead process left. -/
theorem cleanup_sparesLiving_small :
    ∃ configuration : Configuration Process Call Answer (Option Artifact)
        World,
      Reachable (runtime.under namesUnshared) World.initial configuration ∧
      deletes configuration 1 = some (0, ownerMarker) ∧
      sparesLiving 1 (.unlink (.at 0 ownerMarker)) configuration.state
        true := by
  obtain ⟨configuration, reached, shown⟩ :=
    (runtimeDriver.under startedUnshared).exists_reachable World.initial
      (abandoning ++ cleaning 1 2 15)
      (fun configuration =>
        decide (deletes configuration 1 = some (0, ownerMarker) ∧
          configuration.state.alive 1 = true) &&
        (configuration.state.exec 1 (.unlink (.at 0 ownerMarker)) true).any
          fun after => decide (configuration.state.clock ≤ after.clock))
      (by decide +kernel)
  simp only [Bool.and_eq_true, Option.any_eq_true, decide_eq_true_eq] at shown
  obtain ⟨⟨about, acting⟩, after, done, later⟩ := shown
  obtain ⟨next, active⟩ := running_of_deletes about
  have lifted := unshared_of_started reached
  exact ⟨configuration, lifted, about, cleanup_sparesLiving lifted active
    ⟨⟨acting, done, later⟩, trivial⟩⟩

/-- A cleanup looks at a stale directory; another cleanup removes it, a new
process draws the same name, and the first cleanup deletes the marker of the
new process. -/
theorem cleanup_deletesLiving :
    ∃ (configuration : Configuration Process Call Answer (Option Artifact)
        World) (next : Bool → Os (Option Artifact)) (after : World),
      Reachable runtime World.initial configuration ∧
      configuration.running 1 =
        some (.call (.unlink (.at 1 ownerMarker)) next) ∧
      runtime.act 1 (.unlink (.at 1 ownerMarker)) configuration.state true
        after ∧
      ¬sparesLiving 1 (.unlink (.at 1 ownerMarker)) configuration.state
        true := by
  obtain ⟨configuration, reached, shown⟩ :=
    runtimeDriver.exists_reachable World.initial
      (abandoning ++ cleaning 1 2 13 ++ cleaning 2 3 17 ++ marking 3 4 ++
        obliged 1 2)
      (fun configuration => decide (
        deletes configuration 1 = some (1, ownerMarker) ∧
        configuration.state.disk.lookup (.at 1 ownerMarker) = some ⟨1, 2⟩ ∧
        (configuration.state.disk.files ⟨1, 2⟩).creator = some 3 ∧
        configuration.state.alive 1 = true ∧
        configuration.state.alive 3 = true) &&
        (configuration.state.exec 1 (.unlink (.at 1 ownerMarker)) true).any
          fun after => decide (configuration.state.clock ≤ after.clock))
      (by decide +kernel)
  simp only [Bool.and_eq_true, Option.any_eq_true, decide_eq_true_eq] at shown
  obtain ⟨⟨about, present, creator, acting, living⟩, after, done, later⟩ :=
    shown
  obtain ⟨next, active⟩ := running_of_deletes about
  refine ⟨configuration, next, after, reached, active,
    ⟨acting, done, later⟩, fun spares => ?_⟩
  have dead := spares ⟨1, 2⟩ 3 present creator
  rw [living] at dead
  cases dead

end RymgaLoader.Native
