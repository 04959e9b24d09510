import RymgaLoader.Native.RuntimeRuns
import RymgaLoader.Native.WindowsCleanup
import RymgaLoader.Native.WindowsDownload

/-!
# Runs of a runtime directory on Windows

The discipline of the processes of `WindowsRuntime` is sound, so that in every
run the runtime directory is settled.
-/

namespace RymgaLoader.Native.Windows

open Interleaving

variable {paths : Process → Bytes} {tidy : Prop}
  {condition : Process → (call : Call) → World → Answer call → Prop}
  {self : Process} {before after : World}

/-- What a job returns is published under a path its process can ask the
system about. -/
def Returns (paths : Process → Bytes) (process : Process)
    (returned : Option Artifact) (world : World) : Prop :=
  Collects process returned world ∧ ∀ artifact, returned = some artifact →
    windows.ReachesArtifact (paths process) artifact

theorem returns_stable {returned : Option Artifact} :
    (sharing paths tidy condition).Stable self
      (Returns paths self returned) :=
  stable_of_native (lasting_collects.and (.const _)).stable

theorem Spelled.withStanding {change : Standing → Standing}
    (spelled : Spelled paths before)
    (held : ∀ artifact ∈ (change (before.standing self)).artifacts,
      windows.ReachesArtifact (paths self) artifact) :
    Spelled paths (before.withStanding self change) := by
  intro process living artifact member
  dsimp only [World.withStanding] at living member
  by_cases same : process = self
  · subst same
    rw [Function.update_self] at member
    exact held artifact member
  · rw [Function.update_of_ne same] at member
    exact spelled process living artifact member

theorem Spelled.begin {job : RuntimeJob} (spelled : Spelled paths before)
    (alive : before.alive self = true)
    (begins : job.Begins self before after) : Spelled paths after := by
  cases job with
  | download sodium q m encodedManifest network =>
      obtain ⟨-, rfl⟩ := begins
      exact spelled
  | release runtimeDirectory artifact =>
      obtain ⟨-, rfl⟩ := begins
      exact spelled.withStanding fun other kept =>
        spelled self alive other (List.mem_of_mem_erase kept)
  | cleanup =>
      obtain rfl := begins
      exact spelled

theorem Spelled.collect {returned : Option Artifact}
    (spelled : Spelled paths before) (alive : before.alive self = true)
    (reaches : ∀ artifact, returned = some artifact →
      windows.ReachesArtifact (paths self) artifact) :
    Spelled paths (before.collect self returned) := by
  refine spelled.withStanding fun artifact member => ?_
  rcases List.mem_append.mp member with mine | older
  · exact reaches artifact (Option.mem_toList.mp mine)
  · exact spelled self alive artifact older

theorem Spelled.ended (spelled : Spelled paths before)
    (ends : Ends self before after) : Spelled paths after := by
  obtain ⟨-, rfl⟩ := ends
  intro process living
  by_cases same : process = self
  · simp [same] at living
  · dsimp only at living
    rw [Function.update_of_ne same] at living
    exact spelled process living

theorem Spelled.passes (spelled : Spelled paths before)
    (changed : Spawns before after ∨ Ticks before after) :
    Spelled paths after := by
  rcases changed with ⟨pid, -, -, -, rfl⟩ | ⟨now, -, rfl⟩
  · intro process living artifact member
    by_cases same : process = before.born
    · subst same
      simp [World.spawn] at member
    · dsimp only [World.spawn] at living member
      rw [Function.update_of_ne same] at living member
      exact spelled process living artifact member
  · exact spelled

theorem sharing_sound (allows : Allows paths tidy condition) :
    (sharing paths tidy condition).Sound (Returns paths) where
  start := by
    rintro self program before after ⟨settled, spelled⟩
      ⟨alive, job, uses, rfl, begins⟩
    obtain ⟨settledAfter, spares⟩ := settled.begin alive begins
    refine ⟨⟨settledAfter, spelled.begin alive begins⟩, spares, ?_⟩
    have nothing : ∀ world, world.alive self = true →
        (sharing paths tidy condition).Robust self (Returns paths self)
          (.done none) world :=
      fun world alive => .done returns_stable
        ⟨collects_none alive, by rintro artifact ⟨⟩⟩
    cases job with
    | download sodium q m encodedManifest network =>
        obtain ⟨parsed, rfl⟩ := begins
        have same : q.runtimeDirectory = paths self := uses
        refine Discipline.Robust.bind (robust_of_native
          (Platform.downloadArtifact_robust allows.files
            (makesTemps allows.files allows.unwatched) parsed alive)) ?_
        rintro ⟨result, returned⟩ world ⟨collects, reaches⟩
        rw [same] at reaches
        exact .done returns_stable ⟨collects, reaches⟩
    | release runtimeDirectory artifact =>
        obtain ⟨member, rfl⟩ := begins
        have same : runtimeDirectory = paths self := uses
        subst same
        refine Discipline.Robust.bind (robust_of_native
          (Platform.release_robust allows.files settled alive member
            (spelled self alive artifact member))) ?_
        intro _ world alive
        exact nothing world alive
    | cleanup =>
        obtain rfl := begins
        refine Discipline.Robust.bind (cleanupStale_robust allows alive) ?_
        intro _ world alive
        exact nothing world alive
  finish := by
    rintro self returned before after ⟨settled, spelled⟩ ⟨collects, reaches⟩ rfl
    obtain ⟨settledAfter, spares⟩ := settled.collect collects
    exact ⟨⟨settledAfter, spelled.collect collects.1 reaches⟩, spares⟩
  stop := by
    rintro self before after ⟨settled, spelled⟩ ends
    obtain ⟨settledAfter, spares⟩ := settled.ended ends
    exact ⟨⟨settledAfter, spelled.ended ends⟩, spares⟩
  other := by
    rintro before after ⟨settled, spelled⟩ changed
    obtain ⟨settledAfter, spares⟩ := settled.passes changed
    exact ⟨⟨settledAfter, spelled.passes changed⟩, spares⟩

theorem allows_filesDeletable :
    Allows paths True (filesDeletable paths) where
  files _ _ _ _ met := ⟨met.1.1, fun _ => met.1⟩
  unwatched _ _ _ met := met.2.1
  reached _ _ _ _ _ met := met.2.2

theorem settled_of_reachable
    {configuration : Configuration Process Call Answer (Option Artifact) World}
    (reached : Reachable ((runtime paths).under (filesDeletable paths))
      World.initial configuration) : configuration.state.Settled True := by
  obtain ⟨⟨settled, -⟩, -⟩ :=
    (sharing_sound allows_filesDeletable).reachable
      ⟨World.initial_settled, by rintro process ⟨⟩⟩ reached
  exact settled

/-- The driver of `RuntimeRuns` for the platform layer of Windows. -/
def runtimeDriver : Driver (runtime fun _ => smallRequest.runtimeDirectory)
    (Process → World → (call : Call) → Answer call) SmallJob SmallEvent where
  start self job world := (job.begin self world).map fun (chosen, after) =>
    (jobProgram smallRequest.runtimeDirectory chosen, after)
  call := Native.runtimeDriver.call
  finish := Native.runtimeDriver.finish
  stop := Native.runtimeDriver.stop
  other := Native.runtimeDriver.other
  started := by
    intro self job before program after begun
    obtain ⟨⟨chosen, world⟩, begun, same⟩ := Option.map_eq_some_iff.mp begun
    cases same
    obtain ⟨living, uses, begins⟩ := SmallJob.begins begun
    exact ⟨living, chosen, uses, rfl, begins⟩
  called := Native.runtimeDriver.called
  finished := Native.runtimeDriver.finished
  stopped := Native.runtimeDriver.stopped
  changed := Native.runtimeDriver.changed

/-- The name of the directory that the call makes. -/
def madeDirectory : (call : Call) → Answer call → Option Name
  | .createDirectory name, .created => some name
  | _, _ => none

/-- No scan, and no new directory with a name that a process which has started
looked at last. -/
def startedUnwatched (call : Call) (world : World) (answer : Answer call) :
    Prop :=
  call.scans = false ∧ ∀ name ∈ madeDirectory call answer,
    ∀ process < world.born, world.alive process = true →
      (world.standing process).working ≠ some name

instance (call : Call) (world : World) (answer : Answer call) :
    Decidable (startedUnwatched call world answer) :=
  inferInstanceAs (Decidable (_ ∧ _))

/-- `filesDeletable` for the processes that have started. -/
def startedReached (self : Process) (call : Call) (world : World)
    (answer : Answer call) : Prop :=
  startedDeletable self call world answer ∧
    startedUnwatched call world answer

instance (self : Process) (call : Call) (world : World)
    (answer : Answer call) :
    Decidable (startedReached self call world answer) :=
  inferInstanceAs (Decidable (_ ∧ _))

private theorem directoriesUnwatched_of_started {call : Call}
    {answer : Answer call} (counted : before.Counted)
    (started : startedUnwatched call before answer) :
    directoriesUnwatched call before answer := by
  unfold directoriesUnwatched
  split
  · exact fun process living =>
      started.2 _ rfl process (counted process living) living
  · trivial

private theorem contentsReached_of_started {call : Call}
    {answer : Answer call} {path : Bytes}
    (started : startedUnwatched call before answer) :
    contentsReached path call before answer := by
  unfold contentsReached
  split
  · cases started.1
  · trivial

theorem deletable_of_started
    {configuration : Configuration Process Call Answer (Option Artifact) World}
    (reached : Reachable ((runtime paths).under startedReached) World.initial
      configuration) :
    Reachable ((runtime paths).under (filesDeletable paths)) World.initial
      configuration :=
  Reachable.under_mono
    (fun _ => counted_of_started
      fun _ _ _ _ ⟨_, job, _, _, begins⟩ => ⟨job, begins⟩)
    (fun _ _ _ _ counted met =>
      ⟨filesDeletable_of_started counted met.1,
        directoriesUnwatched_of_started counted met.2,
        contentsReached_of_started met.2⟩) reached

end RymgaLoader.Native.Windows
