import RymgaLoader.Native.Ownership

/-!
# What processes of a runtime directory owe each other

Between any two calls the disk is orderly and every live process still has
what it published.  A call of one process leaves the directories of the
others alone, the entries of the dead only disappear, and nobody else's call
puts a directory under a name that a cleanup stands at.
-/

namespace RymgaLoader.Native

open Interleaving

/-- The artifact is published in a directory of the process, with nothing but
its marker. -/
def World.Holds (world : World) (self : Process) (artifact : Artifact) :
    Prop :=
  ∃ name id file, artifact = ⟨some name, some (name, file)⟩ ∧
    world.disk.root.lookup name = some (.directory id) ∧
    (world.disk.directories id).creator = some self ∧
    ∀ entry ref, world.disk.entry (.inside id entry) = some ref →
      entry = ownerMarker ∨ entry = file

/-- A directory contains at most one file besides its marker. -/
def Disk.Single (disk : Disk) : Prop :=
  ∀ id first second ref other, disk.entry (.inside id first) = some ref →
    disk.entry (.inside id second) = some other → first ≠ ownerMarker →
      second ≠ ownerMarker → first = second

theorem Disk.Single.fewer {before after : Disk} (single : before.Single)
    (fewer : ∀ id file ref, file ≠ ownerMarker →
      after.entry (.inside id file) = some ref →
        before.entry (.inside id file) = some ref) : after.Single := by
  intro id first second ref other one two notFirst notSecond
  exact single id first second ref other (fewer id first ref notFirst one)
    (fewer id second other notSecond two) notFirst notSecond

/-- In one directory only `target` is left. -/
theorem Disk.Single.only {before after : Disk} (single : before.Single)
    {id : Nat} (target : Name)
    (only : ∀ file ref, after.entry (.inside id file) = some ref →
      file ≠ ownerMarker → file = target)
    (others : ∀ other, other ≠ id →
      after.directories other = before.directories other) :
    after.Single := by
  intro chosen first second ref other one two notFirst notSecond
  by_cases same : chosen = id
  · subst same
    rw [only first ref one notFirst, only second other two notSecond]
  · rw [Disk.entry, others chosen same] at one two
    exact single chosen first second ref other one two notFirst notSecond

/-- What holds of the world between any two calls. -/
structure World.Settled (tidy : Prop) (world : World) : Prop where
  disk : world.disk.Orderly tidy world.born world.pidOf
  single : world.disk.Single
  born : ∀ process, world.alive process = true → process < world.born
  pids : ∀ process < world.born, 0 < world.pidOf process ∧
    (world.pidOf process : Int) ≤ intMax
  held : ∀ process, world.alive process = true →
    ∀ artifact ∈ (world.standing process).artifacts,
      world.Holds process artifact
  distinct : ∀ process, world.alive process = true →
    (world.standing process).artifacts.Pairwise fun first second =>
      first.directory ≠ second.directory

/-- What the others leave of the belongings of a live process and of the
dead. -/
structure Disk.Spares (alive : Process → Bool) (process : Process)
    (before after : Disk) : Prop where
  directories : before.nextDirectory ≤ after.nextDirectory
  files : before.nextFile ≤ after.nextFile
  fixed : ∀ id < before.nextDirectory,
    (after.directories id).creator = (before.directories id).creator ∧
    (after.directories id).name = (before.directories id).name
  origin : ∀ ref, ref.index < before.nextFile →
    after.origin ref = before.origin ref
  kept : ∀ id < before.nextDirectory,
    (before.directories id).creator = some process →
      after.directories id = before.directories id
  stays : ∀ name, ∀ id < before.nextDirectory,
    before.root.lookup name = some (.directory id) →
    (before.directories id).creator = some process →
      after.root.lookup name = some (.directory id)
  written : ∀ ref, ref.index < before.nextFile →
    (before.files ref).creator = some process →
      after.files ref = before.files ref
  shrinks : ∀ id < before.nextDirectory, ∀ owner,
    (before.directories id).creator = some owner → alive owner = false →
      ∀ name ref, after.entry (.inside id name) = some ref →
        before.entry (.inside id name) = some ref

theorem Disk.Spares.refl {alive : Process → Bool} {self : Process}
    (disk : Disk) : Disk.Spares alive self disk disk where
  directories := Nat.le_refl _
  files := Nat.le_refl _
  fixed _ _ := ⟨rfl, rfl⟩
  origin _ _ := rfl
  kept _ _ _ := rfl
  stays _ _ _ found _ := found
  written _ _ _ := rfl
  shrinks _ _ _ _ _ _ _ found := found

/-- A confined change of another live process. -/
theorem Disk.Confined.spares {alive : Process → Bool}
    {actor self : Process} {focus : Option Nat} {before after : Disk}
    (confined : Disk.Confined alive actor focus before after)
    (acting : alive actor = true) (living : alive self = true)
    (different : actor ≠ self) : Disk.Spares alive self before after where
  directories := confined.directories
  files := confined.files
  fixed := confined.fixed
  origin := confined.origin
  kept id older creator := by
    refine confined.kept id older self creator living fun chosen => ?_
    rw [confined.focused id chosen older] at creator
    exact different (Option.some.inj creator)
  stays name id older found creator := by
    refine confined.stays name id self found creator living fun chosen => ?_
    rw [confined.focused id chosen older] at creator
    exact different (Option.some.inj creator)
  written ref index creator := by
    refine confined.written ref index ?_
    rw [creator]
    exact fun same => different (Option.some.inj same).symm
  shrinks id older owner creator dead := by
    refine confined.shrinks id older ?_
    rw [creator]
    rintro ⟨⟩
    rw [acting] at dead
    cases dead

/-- What a live process may rely on. -/
structure World.Spares (process : Process) (before after : World) : Prop where
  standing : after.standing process = before.standing process
  alive : after.alive process = true
  dead : ∀ other < before.born, before.alive other = false →
    after.alive other = false
  born : before.born ≤ after.born
  pids : ∀ other < before.born,
    after.pidOf other = before.pidOf other
  disk : Disk.Spares before.alive process before.disk after.disk
  roots : ∀ name, (before.standing process).working = some name → ∀ node,
    after.disk.root.lookup name = some node →
      before.disk.root.lookup name = some node

/-- Every outcome that meets `condition` leaves names unshared and, in tidy
runs, files deletable. -/
def Permits (tidy : Prop)
    (condition : Process → (call : Call) → World → Answer call → Prop) :
    Prop :=
  ∀ self call world answer, condition self call world answer →
    namesUnshared self call world answer ∧
      (tidy → filesDeletable self call world answer)

/-- The discipline of the processes. -/
def owning (tidy : Prop)
    (condition : Process → (call : Call) → World → Answer call → Prop) :
    Discipline (runtime.under condition) where
  invariant := World.Settled tidy
  rely self before after :=
    before.alive self = true → before.Spares self after
  good := sparesLiving

section

variable {tidy : Prop}
  {condition : Process → (call : Call) → World → Answer call → Prop}
  {self : Process} {before after : World}

/-- A held artifact is in a directory the change is not about. -/
private theorem World.Holds.confined {alive : Process → Bool}
    {actor owner : Process} {focus : Option Nat} {artifact : Artifact}
    (holds : before.Holds owner artifact)
    (orderly : before.disk.Orderly tidy before.born before.pidOf)
    (confined : Disk.Confined alive actor focus before.disk after.disk)
    (living : alive owner = true)
    (apart : ∀ name id, artifact.directory = some name →
      before.disk.root.lookup name = some (.directory id) →
        (before.disk.directories id).creator = some owner →
          focus ≠ some id) : after.Holds owner artifact := by
  obtain ⟨name, id, file, rfl, linked, creator, only⟩ := holds
  obtain ⟨_, same, older, -⟩ := orderly.linked name _ linked
  cases same
  have outside := apart name id rfl linked creator
  have kept := confined.kept id older owner creator living outside
  refine ⟨name, id, file, rfl, ?_, ?_, ?_⟩
  · exact confined.stays name id owner linked creator living outside
  · rw [kept, creator]
  · intro entry ref found
    rw [Disk.entry, kept] at found
    exact only entry ref found

/-- What a confined call leaves behind. -/
theorem World.Settled.confined {call : Call} {answer : Answer call}
    {focus : Option Nat} (settled : before.Settled tidy)
    (acted : acts self call before answer after)
    (confined : Disk.Confined before.alive self focus before.disk after.disk)
    (orderly : after.disk.Orderly tidy before.born before.pidOf)
    (single : after.disk.Single)
    (apart : ∀ id name, focus = some id →
      before.disk.root.lookup name = some (.directory id) →
        before.Unheld self name)
    (roots : ∀ name node, after.disk.root.lookup name = some node →
      before.disk.root.lookup name = some node ∨
        ∀ process, before.alive process = true →
          (before.standing process).working ≠ some name) :
    after.Settled tidy ∧ ∀ other, other ≠ self →
      before.alive other = true → before.Spares other after := by
  obtain ⟨acting, done, -⟩ := acted
  obtain ⟨alive, pids, born, standing⟩ := World.exec_frame done
  have artifacts : ∀ process, (after.standing process).artifacts =
      (before.standing process).artifacts := by
    intro process
    by_cases same : process = self
    · subst same
      exact (World.exec_standing done).1
    · rw [standing process same]
  refine ⟨⟨?_, single, ?_, ?_, ?_, ?_⟩, ?_⟩
  · rw [born, pids]
    exact orderly
  · rw [alive, born]
    exact settled.born
  · rw [pids, born]
    exact settled.pids
  · intro process living artifact member
    rw [alive] at living
    rw [artifacts] at member
    refine (settled.held process living artifact member).confined
      settled.disk confined living ?_
    intro name id located linked creator chosen
    obtain ⟨_, same, older, -⟩ := settled.disk.linked name _ linked
    cases same
    rw [confined.focused id chosen older] at creator
    cases creator
    exact apart id name chosen linked artifact member located
  · intro process living
    rw [alive] at living
    rw [artifacts]
    exact settled.distinct process living
  · intro other different living
    refine ⟨standing other different, ?_, ?_, born.ge, ?_, ?_, ?_⟩
    · rw [alive]
      exact living
    · intro process _ dead
      rw [alive]
      exact dead
    · intro process _
      rw [pids]
    · exact confined.spares acting living different.symm
    · intro name working node found
      refine (roots name node found).resolve_right fun free => ?_
      exact free other living working

/-- A call that is confined keeps to the discipline. -/
theorem keeps_of_confined {call : Call} {answer : Answer call}
    {focus : Option Nat} (settled : before.Settled tidy)
    (acted : acts self call before answer after)
    (confined : Disk.Confined before.alive self focus before.disk after.disk)
    (orderly : after.disk.Orderly tidy before.born before.pidOf)
    (single : after.disk.Single)
    (apart : ∀ id name, focus = some id →
      before.disk.root.lookup name = some (.directory id) →
        before.Unheld self name)
    (roots : ∀ name node, after.disk.root.lookup name = some node →
      before.disk.root.lookup name = some node ∨
        ∀ process, before.alive process = true →
          (before.standing process).working ≠ some name)
    (good : sparesLiving self call before answer) :
    (owning tidy condition).Keeps self call before answer after := by
  obtain ⟨settledAfter, spares⟩ :=
    settled.confined acted confined orderly single apart roots
  exact ⟨settledAfter, spares, good⟩

/-- The deletions of a call that changes nothing on disk spare the living. -/
private theorem sparesLiving_of_quiet {call : Call} {answer : Answer call}
    (quiet : call.changesDisk = false) :
    sparesLiving self call before answer := by
  cases call <;> first | cases quiet; done | exact True.intro

/-- What a call that leaves the disk as it is does to the world. -/
structure World.Rests (process : Process) (before after : World) : Prop where
  disk : after.disk = before.disk
  alive : after.alive = before.alive
  pids : after.pidOf = before.pidOf
  born : after.born = before.born
  artifacts : (after.standing process).artifacts =
    (before.standing process).artifacts

/-- A call that fails, or has nothing to change. -/
theorem keeps_of_same {call : Call} {answer : Answer call}
    (settled : before.Settled tidy)
    (acted : acts self call before answer after)
    (same : after.disk = before.disk)
    (good : sparesLiving self call before answer) :
    (owning tidy condition).Keeps self call before answer after := by
  have confined : Disk.Confined before.alive self none before.disk
      after.disk := by
    rw [same]
    exact .refl none (by rintro id ⟨⟩)
  refine keeps_of_confined settled acted confined ?_ ?_
    (by rintro id name ⟨⟩) ?_ good
  · rw [same]
    exact settled.disk
  · rw [same]
    exact settled.single
  · intro name node found
    rw [same] at found
    exact Or.inl found

theorem keeps_of_quiet {call : Call} {answer : Answer call}
    (quiet : call.changesDisk = false) (settled : before.Settled tidy)
    (acted : acts self call before answer after) :
    (owning tidy condition).Keeps self call before answer after :=
  keeps_of_same settled acted (World.exec_disk quiet acted.2.1)
    (sparesLiving_of_quiet quiet)

theorem rests_of_same {call : Call} {answer : Answer call}
    (acted : acts self call before answer after)
    (same : after.disk = before.disk) : before.Rests self after := by
  obtain ⟨alive, pids, born, -⟩ := World.exec_frame acted.2.1
  exact ⟨same, alive, pids, born, (World.exec_standing acted.2.1).1⟩

theorem rests_of_quiet {call : Call} {answer : Answer call}
    (quiet : call.changesDisk = false)
    (acted : acts self call before answer after) :
    before.Rests self after :=
  rests_of_same acted (World.exec_disk quiet acted.2.1)

/-- Knowledge that survives what the others do and the process's own calls
that leave the disk as it is. -/
structure Lasting (tidy : Prop)
    (condition : Process → (call : Call) → World → Answer call → Prop)
    (process : Process) (assertion : World → Prop) : Prop where
  stable : (owning tidy condition).Stable process assertion
  rests : ∀ before after, before.Rests process after → assertion before →
    assertion after

theorem Lasting.and {first second : World → Prop}
    (left : Lasting tidy condition self first)
    (right : Lasting tidy condition self second) :
    Lasting tidy condition self fun world => first world ∧ second world where
  stable := left.stable.and right.stable
  rests before after rested := And.imp (left.rests before after rested)
    (right.rests before after rested)

theorem Lasting.const (fact : Prop) :
    Lasting tidy condition self fun _ => fact where
  stable _ _ _ _ _ holds := holds
  rests _ _ _ holds := holds

theorem Lasting.imp {fact : Prop} {assertion : World → Prop}
    (lasting : Lasting tidy condition self assertion) :
    Lasting tidy condition self fun world => fact → assertion world where
  stable before after settled settledAfter relied holds met :=
    lasting.stable before after settled settledAfter relied (holds met)
  rests before after rested holds met :=
    lasting.rests before after rested (holds met)

theorem Lasting.exists {β : Type} {assertion : β → World → Prop}
    (lasting : ∀ value, Lasting tidy condition self (assertion value)) :
    Lasting tidy condition self fun world =>
      ∃ value, assertion value world where
  stable := by
    rintro before after settled settledAfter relied ⟨value, holds⟩
    exact ⟨value, (lasting value).stable before after settled settledAfter
      relied holds⟩
  rests := by
    rintro before after rested ⟨value, holds⟩
    exact ⟨value, (lasting value).rests before after rested holds⟩

/-- A call of the process. -/
theorem robust_call {β : Type} {post : β → World → Prop}
    {assertion : World → Prop} {call : Call} {next : Answer call → Os β}
    (lasting : Lasting tidy condition self assertion)
    (holds : assertion before)
    (step : ∀ middle answer after, middle.Settled tidy → assertion middle →
      acts self call middle answer after →
      condition self call middle answer →
        (owning tidy condition).Keeps self call middle answer after ∧
          (owning tidy condition).Robust self post (next answer) after) :
    (owning tidy condition).Robust self post (.call call next) before := by
  refine Discipline.Robust.call lasting.stable holds ?_
  rintro middle answer after settled here ⟨acted, met⟩
  exact step middle answer after settled here acted met

/-- A call that leaves the disk as it is. -/
theorem robust_quiet {β : Type} {post : β → World → Prop}
    {assertion : World → Prop} {call : Call} {next : Answer call → Os β}
    (lasting : Lasting tidy condition self assertion)
    (holds : assertion before) (quiet : call.changesDisk = false)
    (rest : ∀ middle answer after, middle.Settled tidy → assertion middle →
      acts self call middle answer after →
      condition self call middle answer → assertion after →
        (owning tidy condition).Robust self post (next answer) after) :
    (owning tidy condition).Robust self post (.call call next) before := by
  refine robust_call lasting holds ?_
  intro middle answer after settled here acted met
  exact ⟨keeps_of_quiet quiet settled acted,
    rest middle answer after settled here acted met
      (lasting.rests middle after (rests_of_quiet quiet acted) here)⟩

theorem robust_done {β : Type} {post : β → World → Prop} {value : β}
    (lasting : Lasting tidy condition self (post value))
    (holds : post value before) :
    (owning tidy condition).Robust self post (.done value) before :=
  .done lasting.stable holds

end

end RymgaLoader.Native
