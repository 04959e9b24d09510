import RymgaLoader.Lib.Schedule
import RymgaLoader.Native.Filenames
import RymgaLoader.Native.Guarantees
import RymgaLoader.Native.SharedPublishing

/-!
# Runs of a plugin directory

In every run in which nothing new appears under a name whose identity has just
been read, no new file gets an inode number by which something may still be
deleted, and no marker name is drawn twice, the loader deletes and writes only
files that loaders made, and nothing that a live process holds.  What a live
process holds stays published.
-/

namespace RymgaLoader.Native

open Interleaving

variable {self : Process} {before after : Shared}

theorem visible_of_head {name : Name} (visible : name.head? ≠ some 0x2E) :
    hiddenName name = false := by
  rw [← Bool.not_eq_true]
  intro isHidden
  refine visible ?_
  simp only [hiddenName, decide_eq_true_eq] at isHidden
  cases name with
  | nil => cases isHidden
  | cons byte name =>
      have first : byte = 0x2E := by
        simp only [List.take_succ_cons, ascii, List.map_cons,
          List.cons.injEq] at isHidden
        exact isHidden.1
      rw [first]
      rfl

/-- A process changes what it holds or forgets what it goes by. -/
private theorem settled_of_standing (change : Standing → Standing)
    (settled : before.Settled)
    (living : before.world.alive self = true)
    (same : after = { before with
      world := before.world.withStanding self change })
    (reading : ∀ ref,
      (change (before.world.standing self)).reading = some ref →
        (before.world.standing self).reading = some ref)
    (noted : ∀ inode,
      (change (before.world.standing self)).noted = some inode →
        (before.world.standing self).noted = some inode)
    (held : ∀ plugin ∈ (change (before.world.standing self)).plugins,
      before.Holds self plugin)
    (apart : (change (before.world.standing self)).plugins.Pairwise
      fun first second => first.marker ≠ second.marker ∧
        first.fileId ≠ second.fileId) :
    after.Settled ∧ ∀ other, other ≠ self →
      before.world.alive other = true → before.Spares other after := by
  subst same
  have own : (before.world.withStanding self change).standing self =
      change (before.world.standing self) := Function.update_self _ _ _
  have others : ∀ process, process ≠ self →
      (before.world.withStanding self change).standing process =
        before.world.standing process :=
    fun process different => Function.update_of_ne different _ _
  refine ⟨settled.moved rfl rfl (Nat.le_refl _) (fun _ _ => rfl)
    settled.pids settled.born ?_ ?_ ?_ ?_, fun other different alive =>
      .same rfl rfl (others other different) alive (fun _ _ dead => dead)
        (Nat.le_refl _) (fun _ _ => rfl)⟩
  · intro process ref alive opened
    refine ⟨alive, ?_⟩
    by_cases same : process = self
    · subst same
      rw [own] at opened
      exact reading ref opened
    · rw [others process same] at opened
      exact opened
  · intro process inode alive own'
    refine ⟨alive, ?_⟩
    by_cases same : process = self
    · subst same
      rw [own] at own'
      exact noted inode own'
    · rw [others process same] at own'
      exact own'
  · intro process alive plugin member
    refine ⟨settled.born process alive, ?_⟩
    by_cases same : process = self
    · subst same
      rw [own] at member
      exact held plugin member
    · rw [others process same] at member
      exact settled.held process alive plugin member
  · intro process alive
    by_cases same : process = self
    · subst same
      rw [own]
      exact apart
    · rw [others process same]
      exact settled.apart process alive

/-- A plugin that is given up has an anchor and a marker of the process, and
the rest of what it holds has others. -/
private theorem owned_of_released {plugin : Plugin}
    (settled : before.Settled) (living : before.world.alive self = true)
    (member : plugin ∈ (before.world.standing self).plugins)
    (same : after = { before with
      world := before.world.withStanding self fun standing =>
        { standing with plugins := standing.plugins.erase plugin } }) :
    ∃ ref, Owned self plugin.anchor ref after ∧
      ref.inode = plugin.fileId ∧ Mine self plugin.marker after := by
  subst same
  obtain ⟨named, ⟨ref, linked, creator, inode, -⟩, drawn, ⟨marker, -, placed,
    maker, -⟩, -⟩ := settled.held self living plugin member
  have kept : ∀ held ∈ (before.world.standing self).plugins.erase plugin,
      plugin.marker ≠ held.marker ∧ plugin.fileId ≠ held.fileId := by
    have sorted := (List.Perm.pairwise_iff
      (fun different => ⟨Ne.symm different.1, Ne.symm different.2⟩)
      (List.perm_cons_erase member)).mp (settled.apart self living)
    exact (List.pairwise_cons.mp sorted).1
  have plugins : ((before.world.withStanding self fun standing =>
      { standing with plugins := standing.plugins.erase plugin }).standing
        self).plugins = (before.world.standing self).plugins.erase plugin := by
    simp [World.withStanding]
  refine ⟨ref, ⟨living, hiddenName_of_partialName named, linked, creator, ?_⟩,
    inode, living, drawn, ?_, ?_⟩
  · rw [World.Spared, plugins]
    intro held still
    refine ⟨?_, ?_⟩
    · intro clash
      have isMarker := settled.tended.drawn _ (settled.held self living held
        (List.mem_of_mem_erase still)).drawn
      rw [clash] at isMarker
      rw [not_partial_of_marker isMarker] at named
      cases named
    · rw [inode]
      exact (kept held still).2.symm
  · intro other found
    rw [show (before.world.withStanding self fun standing =>
      { standing with plugins := standing.plugins.erase plugin }).disk =
        before.world.disk from rfl, placed] at found
    cases found
    exact maker
  · rw [plugins]
    exact fun held still => (kept held still).1.symm

/-- A process crashes or exits. -/
private theorem settled_of_end (settled : before.Settled)
    (same : after = { before with
      world := { before.world with
        alive := Function.update before.world.alive self false } }) :
    after.Settled ∧ ∀ other, other ≠ self →
      before.world.alive other = true → before.Spares other after := by
  subst same
  have gone : ∀ process,
      Function.update before.world.alive self false process = true →
        process ≠ self ∧ before.world.alive process = true := by
    intro process alive
    by_cases same : process = self
    · rw [same, Function.update_self] at alive
      cases alive
    · rw [Function.update_of_ne same] at alive
      exact ⟨same, alive⟩
  refine ⟨settled.moved rfl rfl (Nat.le_refl _) (fun _ _ => rfl)
    settled.pids ?_ ?_ ?_ ?_ ?_, ?_⟩
  · exact fun process alive => settled.born process (gone process alive).2
  · exact fun process ref alive opened => ⟨(gone process alive).2, opened⟩
  · exact fun process inode alive own => ⟨(gone process alive).2, own⟩
  · exact fun process alive plugin member =>
      ⟨settled.born process (gone process alive).2,
        settled.held process (gone process alive).2 plugin member⟩
  · exact fun process alive => settled.apart process (gone process alive).2
  · intro other different alive
    refine .same rfl rfl rfl ?_ (fun process _ dead => ?_) (Nat.le_refl _)
      (fun _ _ => rfl)
    · exact (Function.update_of_ne different _ _).trans alive
    · by_cases same : process = self
      · rw [same]
        exact Function.update_self _ _ _
      · exact (Function.update_of_ne same _ _).trans dead

/-- A new process holds nothing and goes by nothing yet. -/
private theorem settled_of_spawn {pid : Nat} (settled : before.Settled)
    (positive : 0 < pid) (small : (pid : Int) ≤ intMax)
    (same : after = { before with world := before.world.spawn pid }) :
    after.Settled ∧ ∀ other, before.world.alive other = true →
      before.Spares other after := by
  have old : ∀ process, process ≠ before.world.born →
      after.world.alive process = before.world.alive process ∧
      after.world.standing process = before.world.standing process := by
    subst same
    exact fun process different => ⟨Function.update_of_ne different _ _,
      Function.update_of_ne different _ _⟩
  have blank : after.world.standing before.world.born = {} := by
    subst same
    exact Function.update_self _ _ _
  have pids : ∀ process < before.world.born,
      after.world.pidOf process = before.world.pidOf process := by
    subst same
    exact fun process older => Function.update_of_ne older.ne _ _
  have chosen : after.world.pidOf before.world.born = pid := by
    subst same
    exact Function.update_self _ _ _
  have born : after.world.born = before.world.born + 1 := by rw [same]; rfl
  have drawn : after.drawn = before.drawn := by rw [same]
  have disk : after.world.disk = before.world.disk := by rw [same]; rfl
  refine ⟨settled.moved disk drawn (born ▸ Nat.le_succ _) pids ?_ ?_ ?_ ?_ ?_
    ?_, fun other alive => ?_⟩
  · intro process older
    by_cases same : process = before.world.born
    · rw [same, chosen]
      exact ⟨positive, small⟩
    · have known : process < before.world.born := by omega
      rw [pids process known]
      exact settled.pids process known
  · intro process alive
    by_cases same : process = before.world.born
    · rw [same, born]
      exact Nat.lt_succ_self _
    · have known := settled.born process ((old process same).1.symm.trans alive)
      rw [born]
      exact known.trans (Nat.lt_succ_self _)
  · intro process ref alive opened
    by_cases same : process = before.world.born
    · rw [same, blank] at opened
      cases opened
    · obtain ⟨lives, standing⟩ := old process same
      exact ⟨lives.symm.trans alive, by rw [← standing]; exact opened⟩
  · intro process inode alive own
    by_cases same : process = before.world.born
    · rw [same, blank] at own
      cases own
    · obtain ⟨lives, standing⟩ := old process same
      exact ⟨lives.symm.trans alive, by rw [← standing]; exact own⟩
  · intro process alive plugin member
    by_cases same : process = before.world.born
    · rw [same, blank] at member
      cases member
    · have lived := (old process same).1.symm.trans alive
      rw [(old process same).2] at member
      exact ⟨settled.born process lived,
        settled.held process lived plugin member⟩
  · intro process alive
    by_cases same : process = before.world.born
    · rw [same, blank]
      exact List.Pairwise.nil
    · rw [(old process same).2]
      exact settled.apart process ((old process same).1.symm.trans alive)
  · have older := settled.born other alive
    exact .same disk drawn (old other older.ne).2
      ((old other older.ne).1.trans alive)
      (fun process known dead => (old process known.ne).1.trans dead)
      (born ▸ Nat.le_succ _) pids

/-- Time goes by. -/
private theorem settled_of_tick {now : Int64} (settled : before.Settled)
    (same : after = { before with
      world := { before.world with clock := now } }) :
    after.Settled ∧ ∀ other, before.world.alive other = true →
      before.Spares other after := by
  subst same
  exact ⟨settled.moved rfl rfl (Nat.le_refl _) (fun _ _ => rfl)
    settled.pids settled.born (fun _ _ alive opened => ⟨alive, opened⟩)
    (fun _ _ alive own => ⟨alive, own⟩)
    (fun process alive plugin member => ⟨settled.born process alive,
      settled.held process alive plugin member⟩) settled.apart,
    fun other alive => .same rfl rfl rfl alive (fun _ _ dead => dead)
      (Nat.le_refl _) (fun _ _ => rfl)⟩

/-- A plugin is given up and released. -/
private theorem release_shared {plugin : Plugin}
    (settled : before.Settled) (living : before.world.alive self = true)
    (member : plugin ∈ (before.world.standing self).plugins)
    (same : after = { before with
      world := before.world.withStanding self fun standing =>
        { standing with plugins := standing.plugins.erase plugin } }) :
    (after.Settled ∧ ∀ other, other ≠ self →
      before.world.alive other = true → before.Spares other after) ∧
      sparing.Robust self (Collected self)
        (PluginJob.release plugin).program after := by
  obtain ⟨ref, owned, inode, mine⟩ :=
    owned_of_released settled living member same
  refine ⟨settled_of_standing _ settled living same (fun _ => id)
    (fun _ => id) (fun held still => settled.held self living held
      (List.mem_of_mem_erase still))
    ((settled.apart self living).sublist List.erase_sublist), ?_⟩
  refine Discipline.Robust.bind (releasePlugin_shared owned inode
    (settled.held self living plugin member).destination.2 mine) ?_
  intro _ after living
  exact robust_none living

theorem sparing_sound : sparing.Sound Collected where
  start := by
    rintro self program before after settled ⟨living, job, rfl, begins,
      drawn⟩
    obtain ⟨world, names⟩ := after
    obtain rfl : names = before.drawn := drawn
    cases job with
    | materialize interruptions pluginDirectory m encodedManifest source =>
        obtain ⟨parsed, same⟩ := begins
        obtain rfl : world = before.world := same
        refine ⟨settled, fun other _ alive => .same rfl rfl rfl alive
          (fun _ _ dead => dead) (Nat.le_refl _) (fun _ _ => rfl), ?_⟩
        exact materializePlugin_shared interruptions
          ⟨markableName_of_parsed parsed,
            visible_of_head (visible_of_parsed parsed)⟩ living
    | release plugin =>
        obtain ⟨member, same⟩ := begins
        obtain rfl : world = _ := same
        obtain ⟨⟨settledAfter, spares⟩, robust⟩ :=
          release_shared settled living member rfl
        exact ⟨settledAfter, spares, robust⟩
    | cleanup =>
        obtain rfl : world = before.world := begins
        refine ⟨settled, fun other _ alive => .same rfl rfl rfl alive
          (fun _ _ dead => dead) (Nat.le_refl _) (fun _ _ => rfl), ?_⟩
        refine Discipline.Robust.bind (cleanupPlugins_shared living) ?_
        intro _ after living
        exact robust_none living
  finish := by
    rintro self returned before after settled ⟨living, collects⟩ same
    refine settled_of_standing _ settled living same (by rintro ref ⟨⟩)
      (by rintro inode ⟨⟩) ?_ ?_
    · intro plugin member
      rcases List.mem_append.mp member with mine | older
      · exact (collects plugin (Option.mem_toList.mp mine)).1
      · exact settled.held self living plugin older
    · refine List.pairwise_append.mpr ⟨?_, settled.apart self living, ?_⟩
      · cases returned <;> simp
      · intro plugin mine older member
        obtain ⟨-, others⟩ := collects plugin (Option.mem_toList.mp mine)
        exact ⟨(others older member).1.symm, (others older member).2.symm⟩
  stop := by
    rintro self ⟨world, drawn⟩ ⟨worldAfter, names⟩ settled ⟨⟨-, dies⟩, same⟩
    obtain rfl : names = drawn := same
    obtain rfl : worldAfter = _ := dies
    exact settled_of_end settled rfl
  other := by
    rintro ⟨world, drawn⟩ ⟨worldAfter, names⟩ settled ⟨same, spawns | ticks |
      ⟨meddling, disk, done, admitted, changed⟩⟩
    · obtain rfl : names = drawn := same
      obtain ⟨pid, positive, small, -, rfl⟩ := spawns
      exact settled_of_spawn settled positive small rfl
    · obtain rfl : names = drawn := same
      obtain ⟨now, -, rfl⟩ := ticks
      exact settled_of_tick settled rfl
    · have turns := turns_of_meddling settled same done admitted changed
      exact ⟨turns.settled settled, fun other alive =>
        turns.spares (by simp) alive⟩

theorem Shared.initial_settled : Shared.initial.Settled where
  tended := by
    refine ⟨?_, ?_, ?_, ?_, ?_, ?_, ?_, ?_, ?_⟩
    · intro name ref found
      simp [Shared.initial, World.initial, Disk.entry] at found
    · intro name ref found
      simp [Shared.initial, World.initial, Disk.entry] at found
    · intro name ref found
      simp [Shared.initial, World.initial, Disk.entry] at found
    · intro first second ref other found
      simp [Shared.initial, World.initial, Disk.entry] at found
    · intro id
      rfl
    · decide
    · intro name ref origin
      cases origin
    · intro name ref member
      cases member
    · intro name member
      cases member
  vouched := by
    intro owner inode vouched
    cases vouched with
    | marker member => cases member
    | reading alive => cases alive
    | noted alive => cases alive
  reads process ref alive := by cases alive
  born process alive := by cases alive
  pids process older := by cases older
  held process alive := by cases alive
  apart process alive := by cases alive

instance (self : Process) (call : Call) (shared : Shared)
    (answer : Answer call) : Decidable (undoubted self call shared answer) :=
  inferInstanceAs (Decidable (_ ∧ _))

/-- The jobs of a schedule: the plugin of the small manifest is published, the
plugin held last is released, or the directory is cleaned up. -/
inductive SmallPluginJob
  | materialize
  | release
  | cleanup

/-- The events of a schedule besides jobs. -/
inductive DirectoryEvent
  | spawn (pid : Nat)
  | tick (now : Int64)
  | meddle (meddling : Meddling)

def smallDirectory : Bytes := ascii "/p".toList

def smallSource : Bytes := [1, 2, 3]

/-- The program and the world after a job has begun. -/
def SmallPluginJob.begin (job : SmallPluginJob) (self : Process)
    (shared : Shared) : Option (Os (Option Plugin) × Shared) :=
  if shared.world.alive self then
    match job with
    | .materialize => (parseManifest smallManifest.layout).map fun m =>
        ((PluginJob.materialize 0 smallDirectory m smallManifest.layout
          smallSource).program, shared)
    | .release =>
        match (shared.world.standing self).plugins with
        | [] => none
        | plugin :: _ =>
            some ((PluginJob.release plugin).program, { shared with
              world := shared.world.withStanding self fun standing =>
                { standing with
                  plugins := standing.plugins.erase plugin } })
    | .cleanup => some (PluginJob.cleanup.program, shared)
  else none

/-- The driver that gives each call the answer chosen for it. -/
def directoryDriver : Driver pluginDirectory
    (Process → World → (call : Call) → Answer call) SmallPluginJob
    DirectoryEvent where
  start self job shared := job.begin self shared
  call self choice call shared :=
    if shared.world.alive self then
      ((shared.world.exec self call
        (choice self shared.world call)).filter fun after =>
          shared.world.clock ≤ after.clock).map fun after =>
            (choice self shared.world call,
              ⟨after, shared.drawn ++ call.draws⟩)
    else none
  finish self plugin shared :=
    some { shared with world := shared.world.hold self plugin }
  stop self shared :=
    if shared.world.alive self then
      some { shared with world := { shared.world with
        alive := Function.update shared.world.alive self false } }
    else none
  other event shared :=
    match event with
    | .spawn pid =>
        if 0 < pid ∧ (pid : Int) ≤ intMax ∧
            shared.world.hasPid pid = false then
          some { shared with world := shared.world.spawn pid }
        else none
    | .tick now =>
        if shared.world.clock ≤ now then
          some { shared with world := { shared.world with clock := now } }
        else none
    | .meddle meddling =>
        if shared.world.admits meddling.adds then
          (meddling.effect shared.world.disk).map fun disk =>
            { shared with world := shared.world.withDisk disk }
        else none
  started := by
    intro self job before program after begun
    unfold SmallPluginJob.begin at begun
    split at begun
    · rename_i living
      refine ⟨living, ?_⟩
      cases job with
      | materialize =>
          obtain ⟨m, parsed, same⟩ := Option.map_eq_some_iff.mp begun
          cases same
          exact ⟨_, rfl, ⟨parsed, rfl⟩, rfl⟩
      | release =>
          dsimp only at begun
          split at begun
          · cases begun
          · rename_i plugin rest shape
            cases begun
            refine ⟨_, rfl, ⟨?_, rfl⟩, rfl⟩
            rw [shape]
            exact List.mem_cons_self
      | cleanup =>
          cases begun
          exact ⟨_, rfl, rfl, rfl⟩
    · cases begun
  called := by
    intro self choice call before answer after answered
    split at answered
    · rename_i living
      obtain ⟨world, kept, same⟩ := Option.map_eq_some_iff.mp answered
      cases same
      obtain ⟨done, later⟩ := Option.filter_eq_some_iff.mp kept
      exact ⟨⟨living, done, of_decide_eq_true later⟩, rfl⟩
    · cases answered
  finished := by
    intro self plugin before after done
    exact (Option.some.inj done).symm
  stopped := by
    intro self before after halted
    split at halted
    · rename_i living
      cases halted
      exact ⟨⟨living, rfl⟩, rfl⟩
    · cases halted
  changed := by
    intro event before after happened
    cases event with
    | spawn pid =>
        dsimp only at happened
        split at happened
        · rename_i free
          cases happened
          exact ⟨rfl, Or.inl ⟨pid, free.1, free.2.1, free.2.2, rfl⟩⟩
        · cases happened
    | tick now =>
        dsimp only at happened
        split at happened
        · rename_i later
          cases happened
          exact ⟨rfl, Or.inr (Or.inl ⟨now, later, rfl⟩)⟩
        · cases happened
    | meddle meddling =>
        dsimp only at happened
        split at happened
        · rename_i admitted
          obtain ⟨disk, done, same⟩ := Option.map_eq_some_iff.mp happened
          cases same
          exact ⟨rfl, Or.inr (Or.inr ⟨meddling, disk, done, admitted, rfl⟩)⟩
        · cases happened

abbrev DirectoryMove := Move Process
  (Process → World → (call : Call) → Answer call) SmallPluginJob
  DirectoryEvent

/-- A process makes a number of calls, and everything possible succeeds. -/
def serving (self : Process) (count : Nat) : List DirectoryMove :=
  List.replicate count (.call self fun self world => world.obliging self)

/-- A new process publishes the small plugin. -/
def placing : List DirectoryMove :=
  [.other (.spawn 1), .start 0 .materialize] ++ serving 0 24 ++ [.finish 0]

/-- The process dies, and another begins a cleanup. -/
def sweeping (count : Nat) : List DirectoryMove :=
  placing ++ [.stop 0, .other (.spawn 2), .start 1 .cleanup] ++
    serving 1 count

/-- The entry of the plugin directory that the process is about to delete. -/
def unlinks (configuration : Configuration Process Call Answer
    (Option Plugin) Shared) (self : Process) : Option Name :=
  match configuration.running self with
  | some (.call (.unlink (.top name)) _) => some name
  | _ => none

theorem running_of_unlinks
    {configuration : Configuration Process Call Answer (Option Plugin) Shared}
    {name : Name} (shown : unlinks configuration self = some name) :
    ∃ next, configuration.running self =
      some (.call (.unlink (.top name)) next) := by
  unfold unlinks at shown
  split at shown
  · rename_i next active
    cases shown
    exact ⟨next, active⟩
  · cases shown

variable
  {configuration : Configuration Process Call Answer (Option Plugin) Shared}

/-- In every run in which nothing new appears under a name whose identity has
just been read, no new file gets an inode number by which something may still
be deleted, and no marker name is drawn twice, the loader deletes only files
of dead processes and files of the process's own that it does not hold, and
writes only such files of its own. -/
theorem plugins_spareForeign
    (reached : Reachable (pluginDirectory.under undoubted) Shared.initial
      configuration) {call : Call} {next : Answer call → Os (Option Plugin)}
    {answer : Answer call} {after : Shared}
    (active : configuration.running self = some (.call call next))
    (acted : (pluginDirectory.under undoubted).act self call
      configuration.state answer after) :
    sparesForeign self call configuration.state answer :=
  sparing_sound.good Shared.initial_settled reached active acted

/-- A cleanup is about to delete the plugin that a dead process left. -/
theorem plugins_spareForeign_small :
    ∃ configuration : Configuration Process Call Answer (Option Plugin)
        Shared,
      Reachable (pluginDirectory.under undoubted) Shared.initial
        configuration ∧
      unlinks configuration 1 = some (ascii "a.jar".toList) ∧
      sparesForeign 1 (.unlink (.top (ascii "a.jar".toList)))
        configuration.state true := by
  obtain ⟨configuration, reached, shown⟩ :=
    (directoryDriver.under undoubted).exists_reachable Shared.initial
      (sweeping 10)
      (fun configuration =>
        decide (unlinks configuration 1 = some (ascii "a.jar".toList) ∧
          configuration.state.world.alive 1 = true) &&
        (configuration.state.world.exec 1
          (.unlink (.top (ascii "a.jar".toList))) true).any fun after =>
            decide (configuration.state.world.clock ≤ after.clock))
      (by decide +kernel)
  simp only [Bool.and_eq_true, Option.any_eq_true, decide_eq_true_eq] at shown
  obtain ⟨⟨about, acting⟩, after, done, later⟩ := shown
  obtain ⟨next, active⟩ := running_of_unlinks about
  have quiet : undoubted 1 (.unlink (.top (ascii "a.jar".toList)))
      configuration.state true := by
    refine ⟨rfl, ?_⟩
    intro name member
    cases member
  have acted : (pluginDirectory.under undoubted).act 1
      (.unlink (.top (ascii "a.jar".toList))) configuration.state true
      ⟨after, configuration.state.drawn⟩ :=
    ⟨⟨⟨acting, done, later⟩, (List.append_nil _).symm⟩, quiet⟩
  exact ⟨configuration, reached, about,
    plugins_spareForeign reached active acted⟩

/-- What a live process has published goes by the process: the anchor keeps
the inode number of the plugin's file taken, the marker reads back as what the
process and the plugin are, every file with that inode number is the
process's, and nothing else that a live process holds has the same marker or
the same file. -/
theorem heldPlugin_staysReclaimable
    (reached : Reachable (pluginDirectory.under undoubted) Shared.initial
      configuration) {process : Process} {plugin : Plugin}
    (alive : configuration.state.world.alive process = true)
    (member : plugin ∈
      (configuration.state.world.standing process).plugins) :
    (∃ ref, configuration.state.world.disk.entry (.top plugin.anchor) =
        some ref ∧
      (configuration.state.world.disk.volume, ref.inode) =
        (plugin.volumeId, plugin.fileId)) ∧
    (∃ ref, configuration.state.world.disk.entry (.top plugin.marker) =
        some ref ∧
      pluginRecord (configuration.state.world.disk.files ref).content =
        some ((configuration.state.world.pidOf process : Int),
          ⟨plugin.volumeId, plugin.fileId, plugin.destination⟩)) ∧
    (∀ name ref, configuration.state.world.disk.entry (.top name) = some ref →
      ref.inode = plugin.fileId →
        (configuration.state.world.disk.files ref).creator = some process) ∧
    ∀ other held, configuration.state.world.alive other = true →
      held ∈ (configuration.state.world.standing other).plugins →
      (other, held) ≠ (process, plugin) →
        held.marker ≠ plugin.marker ∧ held.fileId ≠ plugin.fileId := by
  obtain ⟨settled, -⟩ :=
    sparing_sound.reachable Shared.initial_settled reached
  have holds := settled.held process alive plugin member
  obtain ⟨anchor, linked, maker, inode, volume⟩ := holds.anchor
  obtain ⟨marker, created, placed, author, epoch, text⟩ := holds.marker
  obtain ⟨positive, bounded⟩ :=
    settled.pids process (settled.born process alive)
  have limit : intMax = 2147483647 := rfl
  have small : configuration.state.world.pidOf process < 2 ^ 63 := by omega
  have narrow := (settled.tended.linked _ anchor linked).2.2
  have record : pluginRecord
      (configuration.state.world.disk.files marker).content =
        some ((configuration.state.world.pidOf process : Int),
          ⟨plugin.volumeId, plugin.fileId, plugin.destination⟩) := by
    rw [text]
    exact pluginRecord_pluginText small epoch
      (volume ▸ settled.tended.volume) (inode ▸ narrow) holds.destination.1
  have vouched : configuration.state.Vouched process plugin.fileId := by
    refine .marker holds.drawn placed author ?_
    rw [text]
    exact recordedFile_pluginText small epoch
      (volume ▸ settled.tended.volume) (inode ▸ narrow)
  have own := settled.vouched process plugin.fileId vouched
  refine ⟨⟨anchor, linked, by rw [inode, volume]⟩, ⟨marker, placed, record⟩,
    own, ?_⟩
  intro other held lives theirs different
  by_cases same : other = process
  · subst same
    have unlike : held ≠ plugin := fun equal => different (by rw [equal])
    have symmetric : Std.Symm fun first second : Plugin =>
        first.marker ≠ second.marker ∧ first.fileId ≠ second.fileId :=
      ⟨fun _ _ apart => ⟨apart.1.symm, apart.2.symm⟩⟩
    exact (settled.apart other lives).forall theirs member unlike
  · have theirHold := settled.held other lives held theirs
    constructor
    · intro clash
      obtain ⟨ref, -, found, writer, -⟩ := theirHold.marker
      rw [clash, placed] at found
      cases found
      rw [author] at writer
      cases writer
      exact same rfl
    · intro clash
      obtain ⟨ref, found, writer, number, -⟩ := theirHold.anchor
      have ours := own _ ref found (number.trans clash)
      rw [writer] at ours
      cases ours
      exact same rfl

/-- A process holds the plugin it has published while a cleanup runs. -/
theorem heldPlugin_staysReclaimable_small :
    ∃ (configuration : Configuration Process Call Answer (Option Plugin)
        Shared) (plugin : Plugin) (ref : FileRef),
      Reachable (pluginDirectory.under undoubted) Shared.initial
        configuration ∧
      plugin ∈ (configuration.state.world.standing 0).plugins ∧
      configuration.state.world.disk.entry (.top plugin.anchor) =
        some ref ∧
      (configuration.state.world.disk.volume, ref.inode) =
        (plugin.volumeId, plugin.fileId) := by
  obtain ⟨configuration, reached, shown⟩ :=
    (directoryDriver.under undoubted).exists_reachable Shared.initial
      (placing ++ [.other (.spawn 2), .start 1 .cleanup] ++ serving 1 8)
      (fun configuration => decide (
        configuration.state.world.alive 0 = true ∧
        (configuration.state.world.standing 0).plugins ≠ []))
      (by decide +kernel)
  obtain ⟨alive, some⟩ := of_decide_eq_true shown
  obtain ⟨plugin, member⟩ := List.exists_mem_of_ne_nil _ some
  obtain ⟨⟨ref, linked, same⟩, -⟩ :=
    heldPlugin_staysReclaimable reached alive member
  exact ⟨configuration, plugin, ref, reached, member, linked, same⟩

end RymgaLoader.Native
