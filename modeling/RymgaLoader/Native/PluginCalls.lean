import RymgaLoader.Native.Contents
import RymgaLoader.Native.Plugins

/-!
# Removing files by their identity

What the deletions of the plugin functions must and may do when the deletion
of some names may be refused: an entry is removed when it leads to a file with
the expected identity, and a file that is refused or not looked at stays.
-/

namespace RymgaLoader.Native

def PluginRecord.identity (record : PluginRecord) : Nat × Nat :=
  (record.volume, record.file)

/-- A file with this identity and an acceptable mode is linked under `name`. -/
def Disk.Identified (disk : Disk) (accepts : Mode → Bool) (name : Name)
    (identity : Nat × Nat) : Prop :=
  ∃ ref, disk.entry (.top name) = some ref ∧
    accepts (disk.files ref).mode = true ∧
    (disk.volume, ref.inode) = identity

/-- Runs in which only the deletion of a `refusable` name may be refused, and
directories and identities are read as they are. -/
def refusing (refusable : Name → Prop) (call : Call) (world : World)
    (answer : Answer call) : Prop :=
  match call, answer with
  | .fstatat place, answer => answer = world.disk.stat place
  | .scan directory, answer => ∃ names, answer = some names ∧
      Lists names (world.disk.names directory)
  | .unlink (.top name), answer => answer = false →
      refusable name ∨ world.disk.lookup (.top name) = none
  | _, _ => True

variable {self : Process} {refusable : Name → Prop} {before after : World}

/-- Since `before` only entries for which `gone` holds have disappeared. -/
structure Removing (gone : Name → Prop) (before after : World) : Prop where
  entry : ∀ name, after.disk.entry (.top name) =
      before.disk.entry (.top name) ∨
    gone name ∧ after.disk.entry (.top name) = none
  files : after.disk.files = before.disk.files
  volume : after.disk.volume = before.disk.volume
  pids : after.hasPid = before.hasPid

namespace Removing

variable {gone : Name → Prop} {middle : World}

theorem of_disk (disk : after.disk = before.disk)
    (pids : after.hasPid = before.hasPid) : Removing gone before after :=
  ⟨fun name => Or.inl (by rw [disk]), by rw [disk], by rw [disk], pids⟩

theorem trans (first : Removing gone before middle)
    (second : Removing gone middle after) : Removing gone before after := by
  refine ⟨fun name => ?_, second.files.trans first.files,
    second.volume.trans first.volume, second.pids.trans first.pids⟩
  rcases second.entry name with same | absent
  · rw [same]
    exact first.entry name
  · exact Or.inr absent

theorem mono {other : Name → Prop} (removing : Removing gone before after)
    (weaker : ∀ name, gone name → other name) :
    Removing other before after :=
  ⟨fun name => (removing.entry name).imp id fun ⟨went, absent⟩ =>
      ⟨weaker name went, absent⟩,
    removing.files, removing.volume, removing.pids⟩

theorem entry_of_some (removing : Removing gone before after) {name : Name}
    {ref : FileRef} (found : after.disk.entry (.top name) = some ref) :
    before.disk.entry (.top name) = some ref := by
  rcases removing.entry name with same | ⟨-, absent⟩
  · rw [← same]
    exact found
  · rw [found] at absent
    cases absent

theorem identified (removing : Removing gone before after)
    {accepts : Mode → Bool} {name : Name} {identity : Nat × Nat}
    (identified : after.disk.Identified accepts name identity) :
    before.disk.Identified accepts name identity := by
  obtain ⟨ref, found, accepted, same⟩ := identified
  refine ⟨ref, removing.entry_of_some found, ?_, ?_⟩
  · rw [← removing.files]
    exact accepted
  · rw [← removing.volume]
    exact same

theorem entry_eq (removing : Removing gone before after) {name : Name}
    (stays : ¬gone name) :
    after.disk.entry (.top name) = before.disk.entry (.top name) :=
  (removing.entry name).resolve_right fun absent => stays absent.1

/-- What stays linked stays identified. -/
theorem keeps_identified (removing : Removing gone before after)
    {accepts : Mode → Bool} {name : Name} {identity : Nat × Nat}
    (stays : ¬gone name)
    (identified : before.disk.Identified accepts name identity) :
    after.disk.Identified accepts name identity := by
  obtain ⟨ref, found, accepted, same⟩ := identified
  refine ⟨ref, (removing.entry_eq stays).trans found, ?_, ?_⟩
  · rw [removing.files]
    exact accepted
  · rw [removing.volume]
    exact same

end Removing

theorem World.exec_hasPid {call : Call} {answer : Answer call}
    (done : before.exec self call answer = some after) :
    after.hasPid = before.hasPid := by
  obtain ⟨alive, pids, born, -⟩ := World.exec_frame done
  funext pid
  rw [World.hasPid, World.hasPid, alive, pids, born]

theorem removing_of_unlink
    {allowed : (call : Call) → World → Answer call → Prop} {name : Name}
    {answer : Bool}
    (answered : alone self allowed (.unlink (.top name)) before answer
      after) :
    Removing (· = name) before after := by
  have pids := World.exec_hasPid answered.1
  rcases World.exec_unlink answered.1 with ⟨-, same⟩ |
    ⟨slot, -, resolved, -, same⟩
  · exact Removing.of_disk same pids
  · cases resolved
    refine ⟨fun candidate => ?_, by rw [same]; rfl, by rw [same]; rfl, pids⟩
    rw [same, Disk.entry_detach]
    by_cases removed : candidate = name
    · subst removed
      rw [if_pos rfl]
      exact Or.inr ⟨rfl, rfl⟩
    · rw [if_neg (by simpa using removed)]
      exact Or.inl rfl

theorem wp_resting {allowed : (call : Call) → World → Answer call → Prop}
    {call : Call} {next : Answer call → Os α} {post : α → World → Prop}
    (quiet : call.changesDisk = false)
    (rest : ∀ answer after, alone self allowed call before answer after →
      after.disk = before.disk → after.hasPid = before.hasPid →
        Program.wp (alone self allowed) (next answer) post after) :
    Program.wp (alone self allowed) (.call call next) post before :=
  fun answer after answered => rest answer after answered
    (World.exec_disk quiet answered.1) (World.exec_hasPid answered.1)

theorem fileIdentity_wp {accepts : Mode → Bool} {name : Name} :
    Program.wp (alone self (refusing refusable)) (fileIdentity accepts name)
      (fun found after => after.disk = before.disk ∧
        after.hasPid = before.hasPid ∧
        ∀ identity, before.disk.Identified accepts name identity →
          found = some identity) before := by
  simp only [fileIdentity, Program.perform_bind]
  refine wp_resting rfl fun answer after answered disk pids => ?_
  have told : answer = before.disk.stat (.top name) := answered.2
  subst told
  have seen : ∀ identity, before.disk.Identified accepts name identity →
      ∃ info, before.disk.stat (.top name) = some info ∧
        accepts info.mode = true ∧ (info.volume, info.inode) = identity := by
    rintro identity ⟨ref, found, accepted, same⟩
    refine ⟨before.disk.statFile ref, ?_, accepted, same⟩
    simp [Disk.stat, Disk.lookup, Disk.resolve, found]
  cases stat : before.disk.stat (.top name) with
  | none =>
      refine ⟨disk, pids, fun identity identified => ?_⟩
      obtain ⟨info, told, -⟩ := seen identity identified
      rw [stat] at told
      cases told
  | some info =>
      dsimp only
      split
      · refine ⟨disk, pids, fun identity identified => ?_⟩
        obtain ⟨told, shown, -, same⟩ := seen identity identified
        rw [stat] at shown
        cases shown
        rw [same]
      · rename_i refused
        refine ⟨disk, pids, fun identity identified => ?_⟩
        obtain ⟨told, shown, accepted, -⟩ := seen identity identified
        rw [stat] at shown
        cases shown
        exact absurd accepted refused

theorem removeSame_wp {accepts : Mode → Bool} {identity : Nat × Nat}
    {name : Name} :
    Program.wp (alone self (refusing refusable))
      (removeSame accepts identity name)
      (fun _ after => Removing (· = name) before after ∧
        (¬refusable name → ¬after.disk.Identified accepts name identity))
      before := by
  simp only [removeSame]
  rw [Program.wp_bind]
  refine Program.wp_mono fileIdentity_wp ?_
  rintro found middle ⟨disk, pids, told⟩
  have rested : Removing (· = name) before middle :=
    Removing.of_disk disk pids
  by_cases matching : found = some identity
  · rw [if_pos matching]
    intro answer after answered
    have removing := removing_of_unlink answered
    refine ⟨rested.trans removing, fun certain identified => ?_⟩
    obtain ⟨ref, linked, -⟩ := identified
    rcases World.exec_unlink answered.1 with ⟨refused, -⟩ |
      ⟨slot, -, resolved, -, same⟩
    · have possible : answer = false → refusable name ∨
          middle.disk.lookup (.top name) = none := answered.2
      rcases possible refused with may | absent
      · exact certain may
      · have present := removing.entry_of_some linked
        simp only [Disk.lookup, Disk.resolve, Option.bind_some] at absent
        rw [present] at absent
        cases absent
    · cases resolved
      rw [same, Disk.entry_detach, if_pos rfl] at linked
      cases linked
  · rw [if_neg matching]
    refine ⟨rested, fun _ identified => ?_⟩
    exact matching (told identity (rested.identified identified))

theorem mem_names_of_entry {disk : Disk} {name : Name} {ref : FileRef}
    (found : disk.entry (.top name) = some ref) :
    name ∈ disk.names none := by
  simp only [Disk.entry] at found
  split at found
  · rename_i linked
    rw [Disk.names, ← AList.mem_keys, ← AList.lookup_isSome, linked]
    rfl
  · cases found

theorem removeCandidates_wp {accepts : Mode → Bool} {wanted : Name → Bool}
    {identity : Nat × Nat} {candidates : List Name} :
    Program.wp (alone self (refusing refusable))
      (removeCandidates accepts wanted identity candidates)
      (fun _ after => Removing (fun name => wanted name = true) before after ∧
        ∀ name ∈ candidates, wanted name = true → ¬refusable name →
          ¬after.disk.Identified accepts name identity) before := by
  induction candidates generalizing before with
  | nil =>
      refine wp_resting rfl fun answer after answered disk pids => ?_
      exact ⟨Removing.of_disk disk pids, by simp⟩
  | cons candidate candidates ih =>
      simp only [removeCandidates]
      by_cases want : wanted candidate = true
      · rw [if_pos want, Program.wp_bind]
        refine Program.wp_mono removeSame_wp ?_
        rintro _ middle ⟨first, cleared⟩
        refine Program.wp_mono ih ?_
        rintro _ after ⟨second, rest⟩
        refine ⟨(first.mono ?_).trans second, ?_⟩
        · rintro name rfl
          exact want
        · intro name member wantName certain identified
          rcases List.mem_cons.mp member with rfl | later
          · exact cleared certain (second.identified identified)
          · exact rest name later wantName certain identified
      · rw [if_neg want]
        refine Program.wp_mono ih ?_
        rintro _ after ⟨removing, rest⟩
        refine ⟨removing, fun name member wantName => ?_⟩
        rcases List.mem_cons.mp member with rfl | later
        · exact absurd wantName want
        · exact rest name later wantName

variable {actor : Process}

/-- Nothing has changed, and no directory scan is under way. -/
structure Rested (actor : Process) (before after : World) : Prop where
  disk : after.disk = before.disk
  pids : after.hasPid = before.hasPid
  idle : after.Idle actor

theorem Rested.removing {gone : Name → Prop}
    (rested : Rested self before after) : Removing gone before after :=
  Removing.of_disk rested.disk rested.pids

theorem may_unlink {name : Name} {ref : FileRef}
    {next : Bool → Os α} {post : α → World → Prop}
    (idle : before.Idle actor)
    (linked : before.disk.entry (.top name) = some ref)
    (rest : ∀ after, Removing (· = name) before after →
      after.disk.entry (.top name) = none → after.Idle actor →
        Program.may (alone actor (refusing refusable)) (next true) post
          after) :
    Program.may (alone actor (refusing refusable))
      (.call (.unlink (.top name)) next) post before := by
  have possible : ∃ after, before.exec actor (.unlink (.top name)) true =
      some after := by
    simp only [World.exec, World.effect, Disk.resolve]
    refine ⟨_, if_pos ?_⟩
    have linked' : (before.withStanding actor fun standing =>
        { standing with checked := none }).disk.entry (.top name) =
          some ref := linked
    rw [linked']
    rfl
  obtain ⟨after, done⟩ := possible
  have answered : alone actor (refusing refusable) (.unlink (.top name))
      before true after := ⟨done, fun refused => by cases refused⟩
  refine ⟨true, after, answered, rest after (removing_of_unlink answered) ?_ ?_⟩
  · rcases World.exec_unlink done with ⟨refused, -⟩ |
      ⟨slot, -, resolved, -, same⟩
    · cases refused
    · cases resolved
      rw [same, Disk.entry_detach, if_pos rfl]
  · rw [World.Idle, (World.exec_standing done).2.2.2 rfl]
    exact idle

theorem Rested.refl (idle : before.Idle actor) :
    Rested actor before before := ⟨rfl, rfl, idle⟩

theorem Rested.trans {middle : World} (first : Rested actor before middle)
    (second : Rested actor middle after) : Rested actor before after :=
  ⟨second.disk.trans first.disk, second.pids.trans first.pids, second.idle⟩

theorem may_quiet {call : Call} {next : Answer call → Os α}
    {post : α → World → Prop} (answer : Answer call)
    (quiet : call.changesDisk = false) (unscanned : call.scans = false)
    (possible : ∃ after, before.exec actor call answer = some after)
    (permitted : refusing refusable call before answer)
    (idle : before.Idle actor)
    (rest : ∀ after, Rested actor before after →
      Program.may (alone actor (refusing refusable)) (next answer) post
        after) :
    Program.may (alone actor (refusing refusable)) (.call call next) post
      before := by
  obtain ⟨after, done⟩ := possible
  refine ⟨answer, after, ⟨done, permitted⟩, rest after
    ⟨World.exec_disk quiet done, World.exec_hasPid done, ?_⟩⟩
  rw [World.Idle, (World.exec_standing done).2.2.2 unscanned]
  exact idle

/-- A deletion may fail where it may be refused or there is nothing to
delete. -/
theorem may_unlink_fail {name : Name} {next : Bool → Os α}
    {post : α → World → Prop} (idle : before.Idle actor)
    (permitted : refusable name ∨ before.disk.entry (.top name) = none)
    (rest : ∀ after, Rested actor before after →
      Program.may (alone actor (refusing refusable)) (next false) post
        after) :
    Program.may (alone actor (refusing refusable))
      (.call (.unlink (.top name)) next) post before := by
  have done : before.exec actor (.unlink (.top name)) false =
      some (before.withStanding actor fun standing =>
        { standing with checked := none }) := rfl
  refine ⟨false, _, ⟨done, fun _ => permitted⟩, rest _ ⟨rfl, rfl, ?_⟩⟩
  rw [World.Idle, (World.exec_standing done).2.2.2 rfl]
  exact idle

/-- A complete scan of the directory, which may begin with any entry. -/
theorem may_scan {entries : List Name} {next : Option (List Name) → Os α}
    {post : α → World → Prop}
    (lists : Lists entries (before.disk.names none))
    (rest : ∀ after, Rested actor before after →
      Program.may (alone actor (refusing refusable)) (next (some entries)) post
        after) :
    Program.may (alone actor (refusing refusable))
      (.call (.scan none) next) post before := by
  refine ⟨some entries, _, ⟨rfl, entries, rfl, lists⟩,
    rest _ ⟨rfl, rfl, ?_⟩⟩
  simpa [World.Idle, World.withStanding] using lists.complete

theorem may_kill {pid : Int} {next : KillResult → Os α}
    {post : α → World → Prop} (dead : before.hasPid pid = false)
    (idle : before.Idle actor)
    (rest : ∀ after, Rested actor before after →
      Program.may (alone actor (refusing refusable)) (next .noSuchProcess) post
        after) :
    Program.may (alone actor (refusing refusable))
      (.call (.kill pid) next) post before := by
  refine may_quiet .noSuchProcess rfl rfl ?_ trivial idle rest
  simp only [World.exec, World.effect]
  refine ⟨_, if_neg ?_⟩
  rintro ⟨alive, -⟩
  change before.hasPid pid = true at alive
  rw [dead] at alive
  cases alive

/-- The system may have forgotten a process that has ended. -/
theorem may_openProcess {pid : Int} {next : ProcessResult → Os α}
    {post : α → World → Prop} (dead : before.hasPid pid = false)
    (idle : before.Idle actor)
    (rest : ∀ after, Rested actor before after →
      Program.may (alone actor (refusing refusable)) (next .failed) post
        after) :
    Program.may (alone actor (refusing refusable))
      (.call (.openProcess pid) next) post before := by
  refine may_quiet .failed rfl rfl ?_ trivial idle rest
  simp only [World.exec, World.effect]
  refine ⟨_, if_neg ?_⟩
  rintro ⟨alive, -⟩
  change before.hasPid pid = true at alive
  rw [dead] at alive
  cases alive

theorem lists_names (disk : Disk) :
    Lists (disk.names none) (disk.names none) :=
  ⟨fun _ member => member, fun _ member => Or.inl member, disk.root.nodupKeys⟩

theorem fileIdentity_may {accepts : Mode → Bool} {name : Name}
    (idle : before.Idle actor) :
    Program.may (alone actor (refusing refusable)) (fileIdentity accepts name)
      (fun found after => Rested actor before after ∧
        (found.isSome = true → ∀ ref,
          before.disk.entry (.top name) = some ref →
            accepts (before.disk.files ref).mode = true)) before := by
  simp only [fileIdentity, Program.perform_bind]
  refine may_quiet (before.disk.stat (.top name)) rfl rfl ?_ rfl idle ?_
  · cases stat : before.disk.stat (.top name) with
    | none => exact ⟨_, rfl⟩
    | some info =>
        simp only [World.exec, World.effect]
        exact ⟨_, if_pos stat⟩
  · intro after rested
    cases stat : before.disk.stat (.top name) with
    | none => exact ⟨rested, by simp⟩
    | some info =>
        dsimp only
        split
        · rename_i accepted
          refine ⟨rested, fun _ ref found => ?_⟩
          simp only [Disk.stat, Disk.lookup, Disk.resolve, Option.bind_some,
            found, Option.some.injEq] at stat
          subst stat
          exact accepted
        · exact ⟨rested, by simp⟩

theorem removeSame_may {accepts : Mode → Bool} {identity : Nat × Nat}
    {name : Name} (idle : before.Idle actor) :
    Program.may (alone actor (refusing refusable))
      (removeSame accepts identity name)
      (fun _ after => Removing (· = name) before after ∧ after.Idle actor)
      before := by
  simp only [removeSame]
  rw [Program.may_bind]
  refine Program.may_mono (fileIdentity_may idle) ?_
  rintro found middle ⟨rested, -⟩
  by_cases matching : found = some identity
  · rw [if_pos matching]
    cases linked : middle.disk.entry (.top name) with
    | none =>
        refine may_unlink_fail rested.idle (Or.inr linked) ?_
        intro after failed
        exact ⟨(rested.trans failed).removing, failed.idle⟩
    | some ref =>
        refine may_unlink rested.idle linked ?_
        intro after removing _ idle
        exact ⟨rested.removing.trans removing, idle⟩
  · rw [if_neg matching]
    exact ⟨rested.removing, rested.idle⟩

/-- A file that may be refused or is not looked at may stay. -/
theorem removeSame_may_stay {accepts : Mode → Bool} {identity : Nat × Nat}
    {name : Name} (idle : before.Idle actor)
    (stays : refusable name ∨ ∀ ref, before.disk.entry (.top name) = some ref →
      accepts (before.disk.files ref).mode = false) :
    Program.may (alone actor (refusing refusable))
      (removeSame accepts identity name)
      (fun _ after => Rested actor before after) before := by
  simp only [removeSame]
  rw [Program.may_bind]
  refine Program.may_mono (fileIdentity_may idle) ?_
  rintro found middle ⟨rested, accepted⟩
  by_cases matching : found = some identity
  · rw [if_pos matching]
    refine may_unlink_fail rested.idle ?_ fun after failed =>
      rested.trans failed
    refine stays.imp id fun unseen => ?_
    rw [rested.disk]
    cases linked : before.disk.entry (.top name) with
    | none => rfl
    | some ref =>
        have seen := accepted (by rw [matching]; rfl) ref linked
        rw [unseen ref linked] at seen
        cases seen
  · rw [if_neg matching]
    exact rested

theorem removeCandidates_may {accepts : Mode → Bool} {wanted : Name → Bool}
    {identity : Nat × Nat} {candidates : List Name} (name : Name)
    (idle : before.Idle actor)
    (stays : wanted name = true → refusable name ∨
      ∀ ref, before.disk.entry (.top name) = some ref →
        accepts (before.disk.files ref).mode = false) :
    Program.may (alone actor (refusing refusable))
      (removeCandidates accepts wanted identity candidates)
      (fun _ after => after.Idle actor ∧
        Removing (fun candidate => candidate ≠ name ∧
          wanted candidate = true) before after) before := by
  induction candidates generalizing before with
  | nil =>
      refine may_quiet () rfl rfl ?_ trivial idle fun after rested =>
        ⟨rested.idle, rested.removing⟩
      simp only [World.exec, World.effect]
      refine ⟨_, if_pos ?_⟩
      have missed : ((before.withStanding actor fun standing =>
          { standing with checked := none }).standing actor).missed = [] := by
        simpa [World.withStanding, World.Idle] using idle
      simp [missed]
  | cons candidate candidates ih =>
      simp only [removeCandidates]
      by_cases want : wanted candidate = true
      · rw [if_pos want, Program.may_bind]
        by_cases same : candidate = name
        · subst same
          refine Program.may_mono (removeSame_may_stay idle (stays want)) ?_
          intro _ middle rested
          refine Program.may_mono (ih rested.idle ?_) ?_
          · rw [rested.disk]
            exact stays
          · rintro _ after ⟨later, removing⟩
            exact ⟨later, rested.removing.trans removing⟩
        · refine Program.may_mono (removeSame_may idle) ?_
          rintro _ middle ⟨first, middleIdle⟩
          refine Program.may_mono (ih middleIdle ?_) ?_
          · intro wantName
            rw [first.entry_eq (Ne.symm same), first.files]
            exact stays wantName
          · rintro _ after ⟨later, removing⟩
            refine ⟨later, (first.mono ?_).trans removing⟩
            rintro other rfl
            exact ⟨same, want⟩
      · rw [if_neg want]
        exact ih idle stays

end RymgaLoader.Native
