import RymgaLoader.Native.Frames

/-!
# Contents of the shared directory

What an observer of the shared directory sees, and two relations between a
disk and a later one: nothing visible has changed, or one temporary directory
has been added and nothing else.
-/

namespace RymgaLoader.Native

/-- The entries `.` and `..`. -/
def dotName (name : Name) : Bool := name = [0x2E] ∨ name = [0x2E, 0x2E]

/-- What `readdir` returns for a directory, in some order. -/
structure Lists (listing keys : List Name) : Prop where
  complete : ∀ name ∈ keys, name ∈ listing
  sound : ∀ name ∈ listing, name ∈ keys ∨ dotName name = true
  nodup : listing.Nodup

namespace Disk

/-- Links lead to directories and files that exist. -/
structure WellFormed (disk : Disk) : Prop where
  directories : ∀ name id, disk.root.lookup name = some (.directory id) →
    id < disk.nextDirectory
  linked : ∀ slot ref, disk.entry slot = some ref → ref.index < disk.nextFile

/-- A file or a subdirectory as an observer sees it. -/
inductive Entry
  | file (content : Bytes) (mode : Mode)
  | directory (mode : Mode) (files : Name → Option (Bytes × Mode))

/-- The visible part of a file. -/
def view (disk : Disk) (ref : FileRef) : Bytes × Mode :=
  ((disk.files ref).content, (disk.files ref).mode)

def contents (disk : Disk) (name : Name) : Option Entry :=
  (disk.root.lookup name).map fun
    | .file ref => .file (disk.view ref).1 (disk.view ref).2
    | .directory id => .directory (disk.directories id).mode fun name =>
        ((disk.directories id).entries.lookup name).map disk.view

/-- Everything that existed in `base` is as it was, and nothing new is
linked. -/
structure Settled (base disk : Disk) : Prop where
  root : ∀ name, disk.root.lookup name = base.root.lookup name
  directories : ∀ id, id < base.nextDirectory →
    disk.directories id = base.directories id
  files : ∀ ref, ref.index < base.nextFile → disk.files ref = base.files ref

/-- Since `base`, the directory `name` with these entries was added and
nothing else changed. -/
structure Holding (base : Disk) (name : Name)
    (entries : Name → Option FileRef) (disk : Disk) : Prop where
  root : ∀ candidate, disk.root.lookup candidate =
    if candidate = name then some (.directory base.nextDirectory)
    else base.root.lookup candidate
  mode : (disk.directories base.nextDirectory).mode = .privateDirectory
  listed : ∀ candidate,
    (disk.directories base.nextDirectory).entries.lookup candidate =
      entries candidate
  directories : ∀ id, id < base.nextDirectory →
    disk.directories id = base.directories id
  files : ∀ ref, ref.index < base.nextFile → disk.files ref = base.files ref
  later : base.nextFile ≤ disk.nextFile
  linked : ∀ candidate ref, entries candidate = some ref →
    base.nextFile ≤ ref.index ∧ ref.index < disk.nextFile

theorem Settled.refl (disk : Disk) : Settled disk disk :=
  ⟨fun _ => rfl, fun _ _ => rfl, fun _ _ => rfl⟩

theorem Settled.contents_eq {base disk : Disk} (settled : Settled base disk)
    (wellFormed : base.WellFormed) : disk.contents = base.contents := by
  have view : ∀ slot ref, base.entry slot = some ref →
      disk.view ref = base.view ref := by
    intro slot ref linked
    rw [Disk.view, Disk.view,
      settled.files ref (wellFormed.linked slot ref linked)]
  funext name
  rw [contents, contents, settled.root]
  cases found : base.root.lookup name with
  | none => rfl
  | some node =>
      cases node with
      | file ref =>
          have linked : base.entry (.top name) = some ref := by
            simp [entry, found]
          simp [view _ _ linked]
      | directory id =>
          have made := wellFormed.directories name id found
          simp only [Option.map_some, settled.directories id made,
            Option.some.injEq, Entry.directory.injEq, true_and]
          funext candidate
          cases inner : (base.directories id).entries.lookup candidate with
          | none => rfl
          | some ref =>
              rw [Option.map_some, Option.map_some,
                view (.inside id candidate) ref inner]

namespace Holding

variable {base disk : Disk} {name : Name} {entries : Name → Option FileRef}

theorem contents_eq (holding : Holding base name entries disk)
    (wellFormed : base.WellFormed) :
    disk.contents = Function.update base.contents name
      (some (.directory .privateDirectory fun candidate =>
        (entries candidate).map disk.view)) := by
  funext candidate
  by_cases same : candidate = name
  · subst same
    rw [Function.update_self, contents, holding.root, if_pos rfl]
    simp only [Option.map_some, holding.mode, holding.listed]
  · rw [Function.update_of_ne same]
    have absent : Settled base { disk with root := base.root } :=
      ⟨fun _ => rfl, holding.directories, holding.files⟩
    rw [← absent.contents_eq wellFormed, contents, contents, holding.root,
      if_neg same]
    rfl

theorem subdirectory_eq (holding : Holding base name entries disk) :
    disk.subdirectory name = some base.nextDirectory := by
  rw [subdirectory, holding.root, if_pos rfl]

theorem resolve_path (holding : Holding base name entries disk)
    (candidate : Name) : disk.resolve (.path name candidate) =
      some (.inside base.nextDirectory candidate) := by
  rw [resolve, holding.subdirectory_eq]
  rfl

theorem entry_inside (holding : Holding base name entries disk)
    (candidate : Name) :
    disk.entry (.inside base.nextDirectory candidate) = entries candidate :=
  holding.listed candidate

theorem lookup_path (holding : Holding base name entries disk)
    (candidate : Name) :
    disk.lookup (.path name candidate) = entries candidate := by
  rw [lookup, holding.resolve_path, Option.bind_some, holding.entry_inside]

/-- A new temporary directory is empty. -/
theorem makeDirectory {base : Disk} {name : Name} {self : Process} :
    Holding base name (fun _ => none) (base.makeDirectory name self) where
  root candidate := by
    by_cases same : candidate = name
    · subst same
      simp [Disk.makeDirectory]
    · simp [Disk.makeDirectory, same, AList.lookup_insert_ne]
  mode := by simp [Disk.makeDirectory]
  listed candidate := by simp [Disk.makeDirectory]
  directories id older := by
    simp [Disk.makeDirectory, Nat.ne_of_lt older]
  files _ _ := rfl
  later := Nat.le_refl _
  linked := by simp

/-- Changes inside the new directory. -/
private theorem setEntries {changed : AList fun _ : Name => FileRef}
    (holding : Holding base name entries disk)
    {updated : Name → Option FileRef}
    (same : ∀ candidate, changed.lookup candidate = updated candidate)
    (linked : ∀ candidate ref, updated candidate = some ref →
      base.nextFile ≤ ref.index ∧ ref.index < disk.nextFile) :
    Holding base name updated
      (disk.setEntries base.nextDirectory changed) where
  root := holding.root
  mode := by simpa [Disk.setEntries] using holding.mode
  listed candidate := by simpa [Disk.setEntries] using same candidate
  directories id older := by
    simpa [Disk.setEntries, Nat.ne_of_lt older] using
      holding.directories id older
  files := holding.files
  later := holding.later
  linked := linked

theorem detach (holding : Holding base name entries disk) (removed : Name) :
    Holding base name (Function.update entries removed none)
      (disk.detach (.inside base.nextDirectory removed)) := by
  refine holding.setEntries ?_ ?_
  · intro candidate
    by_cases same : candidate = removed
    · subst same
      simp
    · rw [AList.lookup_erase_ne same, Function.update_of_ne same]
      exact holding.listed candidate
  · intro candidate ref present
    by_cases same : candidate = removed
    · subst same
      simp at present
    · rw [Function.update_of_ne same] at present
      exact holding.linked candidate ref present

theorem attach (holding : Holding base name entries disk) (added : Name)
    {ref : FileRef} (newer : base.nextFile ≤ ref.index)
    (made : ref.index < disk.nextFile) :
    Holding base name (Function.update entries added (some ref))
      (disk.attach (.inside base.nextDirectory added) ref) := by
  refine holding.setEntries ?_ ?_
  · intro candidate
    by_cases same : candidate = added
    · subst same
      simp
    · rw [AList.lookup_insert_ne same, Function.update_of_ne same]
      exact holding.listed candidate
  · intro candidate other present
    by_cases same : candidate = added
    · subst same
      rw [Function.update_self] at present
      cases present
      exact ⟨newer, made⟩
    · rw [Function.update_of_ne same] at present
      exact holding.linked candidate other present

theorem setFile (holding : Holding base name entries disk) {ref : FileRef}
    (newer : base.nextFile ≤ ref.index) (file : File) :
    Holding base name entries (disk.setFile ref file) where
  root := holding.root
  mode := holding.mode
  listed := holding.listed
  directories := holding.directories
  files other older := by
    have different : other ≠ ref := by
      rintro rfl
      omega
    exact (Function.update_of_ne different _ _).trans
      (holding.files other older)
  later := holding.later
  linked := holding.linked

theorem create (holding : Holding base name entries disk) (added : Name)
    (self : Process) {ref : FileRef} (fresh : disk.Fresh ref) :
    Holding base name (Function.update entries added (some ref))
      (disk.create (.inside base.nextDirectory added) ref self) := by
  have newer : base.nextFile ≤ ref.index := by
    rw [fresh.1]
    exact holding.later
  have advanced : Holding base name entries
      { disk.setFile ref ⟨[], .privateFile, some self⟩ with
        nextFile := disk.nextFile + 1
        origin := Function.update disk.origin ref
          (some (.inside base.nextDirectory added)) } := by
    refine { holding.setFile newer _ with later := ?_, linked := ?_ }
    · exact Nat.le_succ_of_le holding.later
    · intro candidate other present
      obtain ⟨lower, upper⟩ := holding.linked candidate other present
      exact ⟨lower, Nat.lt_succ_of_lt upper⟩
  refine advanced.attach added newer ?_
  rw [fresh.1]
  exact Nat.lt_succ_self _

theorem append (holding : Holding base name entries disk) {ref : FileRef}
    (newer : base.nextFile ≤ ref.index) (bytes : Bytes) :
    Holding base name entries (disk.append ref bytes) :=
  holding.setFile newer _

/-- Removing the emptied directory undoes its creation. -/
theorem removeDirectory (holding : Holding base name entries disk)
    (absent : base.root.lookup name = none) :
    Settled base (disk.removeDirectory name) where
  root candidate := by
    by_cases same : candidate = name
    · subst same
      simp [Disk.removeDirectory, absent]
    · rw [Disk.removeDirectory, AList.lookup_erase_ne same, holding.root,
        if_neg same]
  directories := holding.directories
  files := holding.files

end Holding

section

variable {disk : Disk} {slot other : Slot} {ref : FileRef} {name : Name}
  {creator : Process}

theorem entry_of_detach (linked : (disk.detach other).entry slot = some ref) :
    disk.entry slot = some ref := by
  rw [entry_detach] at linked
  split at linked
  · cases linked
  · exact linked

theorem entry_of_removeDirectory
    (linked : (disk.removeDirectory name).entry slot = some ref) :
    disk.entry slot = some ref :=
  @entry_of_detach disk slot (.top name) ref (by cases slot <;> exact linked)

theorem entry_of_makeDirectory
    (linked : (disk.makeDirectory name creator).entry slot = some ref) :
    disk.entry slot = some ref := by
  cases slot with
  | top candidate =>
      by_cases same : candidate = name
      · subst same
        simp [entry, Disk.makeDirectory] at linked
      · simpa only [entry, Disk.makeDirectory, AList.lookup_insert_ne same]
          using linked
  | inside id candidate =>
      by_cases same : id = disk.nextDirectory
      · subst same
        simp [entry, Disk.makeDirectory] at linked
      · simpa only [entry, Disk.makeDirectory, Function.update_of_ne same]
          using linked

theorem entry_of_create {made : FileRef} (fresh : disk.Fresh made)
    (linked : (disk.create other made creator).entry slot = some ref) :
    (∃ earlier, disk.entry earlier = some ref) ∨ disk.Fresh ref := by
  have attached : ((disk.setFile made
      ⟨[], .privateFile, some creator⟩).attach other made).entry slot =
        some ref := by
    cases slot <;> exact linked
  rw [entry_attach] at attached
  split at attached
  · cases attached
    exact Or.inr fresh
  · exact Or.inl ⟨slot, by cases slot <;> exact attached⟩

end

namespace WellFormed

variable {disk : Disk}

theorem makeDirectory (wellFormed : disk.WellFormed) (name : Name)
    (self : Process) : (disk.makeDirectory name self).WellFormed where
  directories candidate id found := by
    by_cases same : candidate = name
    · subst same
      simp only [Disk.makeDirectory, AList.lookup_insert,
        Option.some.injEq, Node.directory.injEq] at found
      subst found
      exact Nat.lt_succ_self _
    · simp only [Disk.makeDirectory, AList.lookup_insert_ne same] at found
      exact Nat.lt_succ_of_lt (wellFormed.directories candidate id found)
  linked slot ref linked :=
    wellFormed.linked slot ref (entry_of_makeDirectory linked)

theorem attach (wellFormed : disk.WellFormed) (slot : Slot) {ref : FileRef}
    (made : ref.index < disk.nextFile) :
    (disk.attach slot ref).WellFormed where
  directories candidate id found := by
    cases slot with
    | top name =>
        by_cases same : candidate = name
        · subst same
          simp [Disk.attach] at found
        · simp only [Disk.attach, AList.lookup_insert_ne same] at found
          exact wellFormed.directories candidate id found
    | inside inner name => exact wellFormed.directories candidate id found
  linked other target linked := by
    have kept : (disk.attach slot ref).nextFile = disk.nextFile := by
      cases slot <;> rfl
    rw [entry_attach] at linked
    rw [kept]
    split at linked
    · cases linked
      exact made
    · exact wellFormed.linked other target linked

theorem detach (wellFormed : disk.WellFormed) (slot : Slot) :
    (disk.detach slot).WellFormed where
  directories candidate id found := by
    cases slot with
    | top name =>
        by_cases same : candidate = name
        · subst same
          simp [Disk.detach] at found
        · simp only [Disk.detach, AList.lookup_erase_ne same] at found
          exact wellFormed.directories candidate id found
    | inside inner name => exact wellFormed.directories candidate id found
  linked other target linked := by
    have kept : (disk.detach slot).nextFile = disk.nextFile := by
      cases slot <;> rfl
    rw [entry_detach] at linked
    rw [kept]
    split at linked
    · cases linked
    · exact wellFormed.linked other target linked

theorem create (wellFormed : disk.WellFormed) (slot : Slot) {ref : FileRef}
    (fresh : disk.Fresh ref) (self : Process) :
    (disk.create slot ref self).WellFormed := by
  have advanced : Disk.WellFormed
      { disk.setFile ref ⟨[], .privateFile, some self⟩ with
        nextFile := disk.nextFile + 1
        origin := Function.update disk.origin ref (some slot) } :=
    ⟨wellFormed.directories, fun slot ref linked =>
      Nat.lt_succ_of_lt (wellFormed.linked slot ref linked)⟩
  have made : ref.index < disk.nextFile + 1 := by
    rw [fresh.1]
    exact Nat.lt_succ_self _
  have attached := advanced.attach slot made
  cases slot with
  | top name => exact attached
  | inside id name => exact attached

theorem removeDirectory (wellFormed : disk.WellFormed) (name : Name) :
    (disk.removeDirectory name).WellFormed :=
  ⟨fun candidate id found => (wellFormed.detach (.top name)).directories
      candidate id found,
    fun slot ref linked => (wellFormed.detach (.top name)).linked slot ref
      linked⟩

end WellFormed

end Disk

theorem World.exec_wellFormed {world after : World} {self : Process}
    {call : Call} {answer : Answer call}
    (wellFormed : world.disk.WellFormed)
    (done : world.exec self call answer = some after) :
    after.disk.WellFormed := by
  cases changing : call.changesDisk with
  | false =>
      rw [exec_disk changing done]
      exact wellFormed
  | true =>
      cases call
      case mkdtemp =>
        rcases exec_mkdtemp done with ⟨-, same⟩ | ⟨name, -, -, -, same⟩
        · exact same ▸ wellFormed
        · exact same ▸ wellFormed.makeDirectory name self
      case createDirectory name =>
        rcases exec_createDirectory done with ⟨-, same⟩ | ⟨-, -, same⟩
        · exact same ▸ wellFormed
        · exact same ▸ wellFormed.makeDirectory name self
      case mkstemp =>
        rcases exec_mkstemp done with
          ⟨-, same⟩ | ⟨name, ref, -, -, -, fresh, same⟩
        · exact same ▸ wellFormed
        · exact same ▸ wellFormed.create (.top name) fresh self
      case openExcl place =>
        rcases exec_openExcl done with
          ⟨-, same⟩ | ⟨ref, slot, -, -, -, fresh, same⟩
        · exact same ▸ wellFormed
        · exact same ▸ wellFormed.create slot fresh self
      case write ref bytes =>
        rcases exec_write done with ⟨-, same⟩ | ⟨count, -, -, same⟩
        · exact same ▸ wellFormed
        · rw [same]
          exact ⟨wellFormed.directories, wellFormed.linked⟩
      case writeOutput interruptions ref bytes =>
        rcases exec_writeOutput done with ⟨-, same, -⟩ | ⟨count, -, -, same⟩
        · exact same ▸ wellFormed
        · rw [same]
          exact ⟨wellFormed.directories, wellFormed.linked⟩
      case unlink place =>
        rcases exec_unlink done with ⟨-, same⟩ | ⟨slot, -, -, -, same⟩
        · exact same ▸ wellFormed
        · exact same ▸ wellFormed.detach slot
      case rename directory source target =>
        rcases exec_rename done with ⟨-, same⟩ | ⟨id, ref, -, -, present, same⟩
        · exact same ▸ wellFormed
        · rw [same]
          exact (wellFormed.detach _).attach _
            (wellFormed.linked _ ref present)
      case rmdir name =>
        rcases exec_rmdir done with ⟨-, same⟩ | ⟨id, -, -, -, same⟩
        · exact same ▸ wellFormed
        · exact same ▸ wellFormed.removeDirectory name
      case rmdirAt name =>
        rcases exec_rmdirAt done with ⟨-, same⟩ | ⟨id, -, -, -, same⟩
        · exact same ▸ wellFormed
        · exact same ▸ wellFormed.removeDirectory name
      case link source target =>
        rcases exec_link done with ⟨-, same⟩ | ⟨ref, -, present, -, same⟩
        · exact same ▸ wellFormed
        · exact same ▸ wellFormed.attach _ (wellFormed.linked _ ref present)
      all_goals cases changing

theorem wp_wellFormed {self : Process}
    {allowed : (call : Call) → World → Answer call → Prop} {program : Os α}
    {before : World} (wellFormed : before.disk.WellFormed) :
    Program.wp (alone self allowed) program
      (fun _ after => after.disk.WellFormed) before :=
  Program.wp_of_preserved (fun _ _ _ _ kept answered =>
    World.exec_wellFormed kept answered.1) program wellFormed

/-- No linked file has the inode number 0. -/
def Disk.Numbered (disk : Disk) : Prop :=
  ∀ slot ref, disk.entry slot = some ref → ref.inode ≠ 0

/-- An entry after a call leads to a file that was linked before, or to the
one the call has made. -/
theorem World.exec_linked {world after : World} {self : Process}
    {call : Call} {answer : Answer call} {slot : Slot} {ref : FileRef}
    (done : world.exec self call answer = some after)
    (linked : after.disk.entry slot = some ref) :
    (∃ other, world.disk.entry other = some ref) ∨ world.disk.Fresh ref := by
  cases changing : call.changesDisk with
  | false =>
      rw [exec_disk changing done] at linked
      exact Or.inl ⟨slot, linked⟩
  | true =>
      cases call
      case mkdtemp =>
        rcases exec_mkdtemp done with ⟨-, same⟩ | ⟨name, -, -, -, same⟩
        · exact Or.inl ⟨slot, same ▸ linked⟩
        · rw [same] at linked
          exact Or.inl ⟨slot, Disk.entry_of_makeDirectory linked⟩
      case createDirectory name =>
        rcases exec_createDirectory done with ⟨-, same⟩ | ⟨-, -, same⟩
        · exact Or.inl ⟨slot, same ▸ linked⟩
        · rw [same] at linked
          exact Or.inl ⟨slot, Disk.entry_of_makeDirectory linked⟩
      case mkstemp =>
        rcases exec_mkstemp done with
          ⟨-, same⟩ | ⟨name, made, -, -, -, fresh, same⟩
        · exact Or.inl ⟨slot, same ▸ linked⟩
        · rw [same] at linked
          exact Disk.entry_of_create fresh linked
      case openExcl place =>
        rcases exec_openExcl done with
          ⟨-, same⟩ | ⟨made, resolved, -, -, -, fresh, same⟩
        · exact Or.inl ⟨slot, same ▸ linked⟩
        · rw [same] at linked
          exact Disk.entry_of_create fresh linked
      case write written bytes =>
        rcases exec_write done with ⟨-, same⟩ | ⟨count, -, -, same⟩
        · exact Or.inl ⟨slot, same ▸ linked⟩
        · rw [same] at linked
          exact Or.inl ⟨slot, by cases slot <;> exact linked⟩
      case writeOutput interruptions written bytes =>
        rcases exec_writeOutput done with ⟨-, same, -⟩ | ⟨count, -, -, same⟩
        · exact Or.inl ⟨slot, same ▸ linked⟩
        · rw [same] at linked
          exact Or.inl ⟨slot, by cases slot <;> exact linked⟩
      case unlink place =>
        rcases exec_unlink done with ⟨-, same⟩ | ⟨gone, -, -, -, same⟩
        · exact Or.inl ⟨slot, same ▸ linked⟩
        · rw [same] at linked
          exact Or.inl ⟨slot, Disk.entry_of_detach linked⟩
      case rename directory source target =>
        rcases exec_rename done with
          ⟨-, same⟩ | ⟨id, moved, -, -, present, same⟩
        · exact Or.inl ⟨slot, same ▸ linked⟩
        · rw [same, Disk.entry_attach] at linked
          split at linked
          · cases linked
            exact Or.inl ⟨_, present⟩
          · exact Or.inl ⟨slot, Disk.entry_of_detach linked⟩
      case rmdir name =>
        rcases exec_rmdir done with ⟨-, same⟩ | ⟨id, -, -, -, same⟩
        · exact Or.inl ⟨slot, same ▸ linked⟩
        · rw [same] at linked
          exact Or.inl ⟨slot, Disk.entry_of_removeDirectory linked⟩
      case rmdirAt name =>
        rcases exec_rmdirAt done with ⟨-, same⟩ | ⟨id, -, -, -, same⟩
        · exact Or.inl ⟨slot, same ▸ linked⟩
        · rw [same] at linked
          exact Or.inl ⟨slot, Disk.entry_of_removeDirectory linked⟩
      case link source target =>
        rcases exec_link done with ⟨-, same⟩ | ⟨other, -, present, -, same⟩
        · exact Or.inl ⟨slot, same ▸ linked⟩
        · rw [same, Disk.entry_attach] at linked
          split at linked
          · cases linked
            exact Or.inl ⟨_, present⟩
          · exact Or.inl ⟨slot, linked⟩
      all_goals cases changing

theorem wp_numbered {self : Process}
    {allowed : (call : Call) → World → Answer call → Prop} {program : Os α}
    {before : World} (numbered : before.disk.Numbered) :
    Program.wp (alone self allowed) program
      (fun _ after => after.disk.Numbered) before := by
  have preserved : ∀ call (world : World) answer after,
      world.disk.Numbered → alone self allowed call world answer after →
        after.disk.Numbered := by
    intro call world answer after kept answered slot ref linked
    rcases World.exec_linked answered.1 linked with ⟨other, earlier⟩ | fresh
    · exact kept other ref earlier
    · exact fresh.2.1
  exact Program.wp_of_preserved preserved program numbered

end RymgaLoader.Native
