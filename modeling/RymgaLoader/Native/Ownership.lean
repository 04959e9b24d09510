import RymgaLoader.Native.Contents
import RymgaLoader.Native.Runtime

/-!
# Who owns what in the runtime directory

The invariant of the shared runtime directory and what every process may rely
on the others to leave alone.  Every directory and every file in it belongs to
the process that created it; a dead process's belongings can only be deleted.
-/

namespace RymgaLoader.Native

open Interleaving

/-- The names a download gives to the files of its directory. -/
def artifactName (name : Name) : Prop :=
  name = ownerMarker ∨ name = artifactPart ∨
    (jarName name = true ∧ name.length ≤ 255 ∧
      (Unicode.decode name).isSome = true)

/-- The file is the complete marker of the directory. -/
def Disk.Marks (disk : Disk) (pidOf : Process → Nat) (id : Nat)
    (marker : FileRef) : Prop :=
  ∃ owner created, (disk.directories id).creator = some owner ∧
    0 ≤ created ∧ (disk.files marker).content =
      ownerText (pidOf owner) created (disk.directories id).name

/-- The directory contains its complete marker. -/
def Disk.Sealed (disk : Disk) (pidOf : Process → Nat) (id : Nat) : Prop :=
  ∃ marker, disk.entry (.inside id ownerMarker) = some marker ∧
    disk.Marks pidOf id marker

/-- A directory entry: who created the file, and what a marker was created
as. -/
structure Disk.Belongs (disk : Disk) (id : Nat) (name : Name)
    (ref : FileRef) : Prop where
  directory : id < disk.nextDirectory
  file : ref.index < disk.nextFile
  creator : (disk.files ref).creator = (disk.directories id).creator
  mode : (disk.files ref).mode = .privateFile
  named : artifactName name
  origin : name = ownerMarker →
    disk.origin ref = some (.inside id ownerMarker)

/-- What holds of the runtime directory between any two calls.  With `tidy`,
no artifact is without its marker. -/
structure Disk.Orderly (tidy : Prop) (born : Nat) (pidOf : Process → Nat)
    (disk : Disk) : Prop where
  linked : ∀ name node, disk.root.lookup name = some node →
    ∃ id, node = .directory id ∧ id < disk.nextDirectory ∧
      (disk.directories id).name = name
  owner : ∀ id < disk.nextDirectory, ∃ owner < born,
    (disk.directories id).creator = some owner ∧
    directoryName (disk.directories id).name ∧
    (disk.directories id).mode = .privateDirectory
  entries : ∀ id name ref, disk.entry (.inside id name) = some ref →
    disk.Belongs id name ref
  text : ∀ ref id, disk.origin ref = some (.inside id ownerMarker) →
    ref.index < disk.nextFile ∧ id < disk.nextDirectory ∧ ∃ owner created,
      (disk.directories id).creator = some owner ∧ 0 ≤ created ∧
      (disk.files ref).content <+:
        ownerText (pidOf owner) created (disk.directories id).name
  sealed : tidy → ∀ id name ref, disk.entry (.inside id name) = some ref →
    name ≠ ownerMarker → disk.Sealed pidOf id

/-- A change by `actor` that touches, of the directories of live processes, at
most its own directory `focus`. -/
structure Disk.Confined (alive : Process → Bool) (actor : Process)
    (focus : Option Nat) (before after : Disk) : Prop where
  directories : before.nextDirectory ≤ after.nextDirectory
  files : before.nextFile ≤ after.nextFile
  focused : ∀ id, focus = some id → id < before.nextDirectory →
    (before.directories id).creator = some actor
  fixed : ∀ id < before.nextDirectory,
    (after.directories id).creator = (before.directories id).creator ∧
    (after.directories id).name = (before.directories id).name
  origin : ∀ ref, ref.index < before.nextFile →
    after.origin ref = before.origin ref
  kept : ∀ id < before.nextDirectory, ∀ owner,
    (before.directories id).creator = some owner → alive owner = true →
    focus ≠ some id → after.directories id = before.directories id
  stays : ∀ name id owner, before.root.lookup name = some (.directory id) →
    (before.directories id).creator = some owner → alive owner = true →
    focus ≠ some id → after.root.lookup name = some (.directory id)
  written : ∀ ref, ref.index < before.nextFile →
    (before.files ref).creator ≠ some actor →
      after.files ref = before.files ref
  shrinks : ∀ id < before.nextDirectory,
    (before.directories id).creator ≠ some actor → ∀ name ref,
      after.entry (.inside id name) = some ref →
        before.entry (.inside id name) = some ref

namespace Disk

variable {tidy : Prop} {born : Nat} {pidOf : Process → Nat} {disk : Disk}
  {alive : Process → Bool} {self : Process} {id : Nat} {name : Name}
  {ref : FileRef}

theorem Confined.refl (focus : Option Nat)
    (focused : ∀ id, focus = some id → id < disk.nextDirectory →
      (disk.directories id).creator = some self) :
    Confined alive self focus disk disk where
  directories := Nat.le_refl _
  files := Nat.le_refl _
  focused := focused
  fixed _ _ := ⟨rfl, rfl⟩
  origin _ _ := rfl
  kept _ _ _ _ _ _ := rfl
  stays _ _ _ found _ _ _ := found
  written _ _ _ := rfl
  shrinks _ _ _ _ _ found := found

theorem subdirectory_eq_some_iff :
    disk.subdirectory name = some id ↔
      disk.root.lookup name = some (.directory id) := by
  unfold subdirectory
  split <;> simp_all

private theorem directories_makeDirectory (id : Nat) :
    (disk.makeDirectory name self).directories id =
      if id = disk.nextDirectory then
        ⟨∅, .privateDirectory, some self, name⟩
      else disk.directories id := by
  simp [Disk.makeDirectory, Function.update_apply]

private theorem entry_makeDirectory {file : Name}
    (found : (disk.makeDirectory name self).entry (.inside id file) =
      some ref) :
    id ≠ disk.nextDirectory ∧ disk.entry (.inside id file) = some ref := by
  rw [entry, directories_makeDirectory] at found
  split at found
  · cases found
  · rename_i other
    exact ⟨other, found⟩

private theorem lookup_makeDirectory (candidate : Name) :
    (disk.makeDirectory name self).root.lookup candidate =
      if candidate = name then some (.directory disk.nextDirectory)
      else disk.root.lookup candidate := by
  by_cases same : candidate = name
  · subst same
    simp [Disk.makeDirectory]
  · simp [Disk.makeDirectory, same, AList.lookup_insert_ne]

theorem Orderly.makeDirectory (orderly : disk.Orderly tidy born pidOf)
    (temp : directoryName name) (living : self < born) :
    (disk.makeDirectory name self).Orderly tidy born pidOf where
  linked candidate node found := by
    rw [lookup_makeDirectory] at found
    split at found
    · rename_i same
      cases found
      refine ⟨disk.nextDirectory, rfl, Nat.lt_succ_self _, ?_⟩
      rw [directories_makeDirectory, if_pos rfl, same]
    · obtain ⟨id, rfl, older, named⟩ := orderly.linked candidate node found
      refine ⟨id, rfl, Nat.lt_succ_of_lt older, ?_⟩
      rw [directories_makeDirectory, if_neg older.ne, named]
  owner id older := by
    rw [directories_makeDirectory]
    split
    · exact ⟨self, living, rfl, temp, rfl⟩
    · rename_i other
      exact orderly.owner id (Nat.lt_of_le_of_ne (Nat.le_of_lt_succ older)
        other)
  entries id file ref found := by
    obtain ⟨other, present⟩ := entry_makeDirectory found
    obtain ⟨directory, index, creator, mode, named, origin⟩ :=
      orderly.entries id file ref present
    refine ⟨Nat.lt_succ_of_lt directory, index, ?_, mode, named, origin⟩
    rw [directories_makeDirectory, if_neg other]
    exact creator
  text ref id origin := by
    obtain ⟨index, older, text⟩ := orderly.text ref id origin
    refine ⟨index, Nat.lt_succ_of_lt older, ?_⟩
    rw [directories_makeDirectory, if_neg older.ne]
    exact text
  sealed clean id file ref found different := by
    obtain ⟨other, present⟩ := entry_makeDirectory found
    obtain ⟨marker, linked, owner, created, text⟩ :=
      orderly.sealed clean id file ref present different
    refine ⟨marker, ?_, owner, created, ?_⟩
    · rw [entry, directories_makeDirectory, if_neg other]
      exact linked
    · rw [directories_makeDirectory, if_neg other]
      exact text

theorem Confined.makeDirectory (absent : disk.root.lookup name = none) :
    Confined alive self (some disk.nextDirectory) disk
      (disk.makeDirectory name self) where
  directories := Nat.le_succ _
  files := Nat.le_refl _
  focused id chosen older := by
    cases chosen
    exact absurd older (Nat.lt_irrefl _)
  fixed id older := by
    rw [directories_makeDirectory, if_neg older.ne]
    exact ⟨rfl, rfl⟩
  origin _ _ := rfl
  kept id older _ _ _ _ := by
    rw [directories_makeDirectory, if_neg older.ne]
  stays candidate id owner found _ _ _ := by
    rw [lookup_makeDirectory, if_neg]
    · exact found
    · rintro rfl
      rw [absent] at found
      cases found
  written _ _ _ := rfl
  shrinks _ _ _ _ _ found := (entry_makeDirectory found).2

/-- A change by `actor` of the entries of one directory and of its own
files. -/
structure Edits (actor : Process) (id : Nat) (before after : Disk) : Prop where
  root : after.root = before.root
  directories : after.nextDirectory = before.nextDirectory
  files : before.nextFile ≤ after.nextFile
  fixed : ∀ other,
    (after.directories other).creator = (before.directories other).creator ∧
    (after.directories other).name = (before.directories other).name ∧
    (after.directories other).mode = (before.directories other).mode
  others : ∀ other, other ≠ id →
    after.directories other = before.directories other
  origin : ∀ ref, ref.index < before.nextFile →
    after.origin ref = before.origin ref
  written : ∀ ref, ref.index < before.nextFile →
    (before.files ref).creator ≠ some actor →
      after.files ref = before.files ref

variable {before after : Disk}

theorem Edits.confined (edits : Edits self id before after)
    (creator : id < before.nextDirectory →
      (before.directories id).creator = some self) :
    Confined alive self (some id) before after where
  directories := edits.directories.ge
  files := edits.files
  focused chosen same := by
    cases same
    exact creator
  fixed other _ := ⟨(edits.fixed other).1, (edits.fixed other).2.1⟩
  origin := edits.origin
  kept other _ _ _ _ different := edits.others other (by
    rintro rfl
    exact different rfl)
  stays candidate other _ found _ _ _ := by rw [edits.root, found]
  written := edits.written
  shrinks other older foreign file ref found := by
    have different : other ≠ id := by
      rintro rfl
      exact foreign (creator older)
    rw [entry, edits.others other different] at found
    exact found

/-- Taking entries out of the directory of a dead process. -/
theorem Edits.confined_dead {owner : Process}
    (edits : Edits self id before after)
    (creator : (before.directories id).creator = some owner)
    (dead : alive owner = false)
    (shrinks : ∀ file ref, after.entry (.inside id file) = some ref →
      before.entry (.inside id file) = some ref) :
    Confined alive self none before after where
  directories := edits.directories.ge
  files := edits.files
  focused _ chosen := by cases chosen
  fixed other _ := ⟨(edits.fixed other).1, (edits.fixed other).2.1⟩
  origin := edits.origin
  kept other _ living made lives _ := by
    refine edits.others other ?_
    rintro rfl
    rw [creator] at made
    cases made
    rw [dead] at lives
    cases lives
  stays candidate other _ found _ _ _ := by rw [edits.root, found]
  written := edits.written
  shrinks other _ _ file ref found := by
    by_cases same : other = id
    · subst same
      exact shrinks file ref found
    · rw [entry, edits.others other same] at found
      exact found

/-- What an edit has to show for the invariant. -/
theorem Orderly.edit (orderly : before.Orderly tidy born pidOf)
    (edits : Edits self id before after)
    (entries : ∀ file ref, after.entry (.inside id file) = some ref →
      after.Belongs id file ref)
    (files : ∀ other ref file, other ≠ id →
      before.entry (.inside other file) = some ref →
        (after.files ref).creator = (before.files ref).creator ∧
        (after.files ref).mode = (before.files ref).mode)
    (text : ∀ ref other,
      after.origin ref = some (.inside other ownerMarker) →
      ref.index < after.nextFile ∧ other < before.nextDirectory ∧
      ∃ owner created,
        (before.directories other).creator = some owner ∧ 0 ≤ created ∧
        (after.files ref).content <+:
          ownerText (pidOf owner) created (before.directories other).name)
    (markers : tidy → ∀ other, other ≠ id → before.Sealed pidOf other →
      after.Sealed pidOf other)
    (sealed : tidy → ∀ file ref, after.entry (.inside id file) = some ref →
      file ≠ ownerMarker → after.Sealed pidOf id) :
    after.Orderly tidy born pidOf where
  linked candidate node found := by
    rw [edits.root] at found
    obtain ⟨other, rfl, older, named⟩ := orderly.linked candidate node found
    refine ⟨other, rfl, ?_, ?_⟩
    · rw [edits.directories]
      exact older
    · rw [(edits.fixed other).2.1]
      exact named
  owner other older := by
    rw [edits.directories] at older
    rw [(edits.fixed other).1, (edits.fixed other).2.1,
      (edits.fixed other).2.2]
    exact orderly.owner other older
  entries other file ref found := by
    by_cases same : other = id
    · subst same
      exact entries file ref found
    · have present : before.entry (.inside other file) = some ref := by
        rw [entry, edits.others other same] at found
        exact found
      obtain ⟨directory, index, creator, mode, named, origin⟩ :=
        orderly.entries other file ref present
      obtain ⟨sameCreator, sameMode⟩ := files other ref file same present
      refine ⟨?_, Nat.lt_of_lt_of_le index edits.files, ?_, ?_, named, ?_⟩
      · rw [edits.directories]
        exact directory
      · rw [sameCreator, (edits.fixed other).1]
        exact creator
      · rw [sameMode]
        exact mode
      · intro marker
        rw [edits.origin ref index]
        exact origin marker
  text ref other origin := by
    rw [edits.directories, (edits.fixed other).1, (edits.fixed other).2.1]
    exact text ref other origin
  sealed clean other file ref found different := by
    by_cases same : other = id
    · subst same
      exact sealed clean file ref found different
    · rw [entry, edits.others other same] at found
      exact markers clean other same
        (orderly.sealed clean other file ref found different)

/-- A marker stays where the entry and the file stay. -/
theorem Sealed.of_edit {other : Nat} (sealed : before.Sealed pidOf other)
    (edits : Edits self id before after)
    (stays : ∀ marker, before.entry (.inside other ownerMarker) = some marker →
      before.Marks pidOf other marker →
      after.entry (.inside other ownerMarker) = some marker ∧
        (after.files marker).content = (before.files marker).content) :
    after.Sealed pidOf other := by
  obtain ⟨marker, found, marks⟩ := sealed
  obtain ⟨linked, content⟩ := stays marker found marks
  obtain ⟨owner, created, creator, epoch, text⟩ := marks
  refine ⟨marker, linked, owner, created, ?_, epoch, ?_⟩
  · rw [(edits.fixed other).1]
    exact creator
  · rw [content, (edits.fixed other).2.1]
    exact text

private theorem fixed_setEntries {entries : AList fun _ : Name => FileRef}
    (other : Nat) :
    ((disk.setEntries id entries).directories other).creator =
      (disk.directories other).creator ∧
    ((disk.setEntries id entries).directories other).name =
      (disk.directories other).name ∧
    ((disk.setEntries id entries).directories other).mode =
      (disk.directories other).mode := by
  by_cases same : other = id
  · subst same
    simp [setEntries]
  · simp [setEntries, same]

private theorem others_setEntries {entries : AList fun _ : Name => FileRef}
    (other : Nat) (different : other ≠ id) :
    (disk.setEntries id entries).directories other =
      disk.directories other := by
  simp [setEntries, different]

private theorem Edits.setEntries (entries : AList fun _ : Name => FileRef) :
    Edits self id disk (disk.setEntries id entries) where
  root := rfl
  directories := rfl
  files := Nat.le_refl _
  fixed := fixed_setEntries
  others := others_setEntries
  origin _ _ := rfl
  written _ _ _ := rfl

theorem Edits.create (fresh : disk.Fresh ref) :
    Edits self id disk (disk.create (.inside id name) ref self) where
  root := rfl
  directories := rfl
  files := Nat.le_succ _
  fixed := fixed_setEntries
  others := others_setEntries
  origin other older := by
    refine Function.update_of_ne ?_ _ _
    rintro rfl
    exact older.ne fresh.1
  written other older _ := by
    refine Function.update_of_ne ?_ _ _
    rintro rfl
    exact older.ne fresh.1

theorem entry_create {slot : Slot} (file : Name) :
    (disk.create slot ref self).entry (.inside id file) =
      if Slot.inside id file = slot then some ref
      else disk.entry (.inside id file) :=
  entry_attach slot (.inside id file) ref

private theorem files_create {slot : Slot} {other : FileRef}
    (different : other ≠ ref) :
    (disk.create slot ref self).files other = disk.files other := by
  cases slot <;> exact Function.update_of_ne different _ _

theorem Orderly.create (orderly : disk.Orderly tidy born pidOf)
    (older : id < disk.nextDirectory)
    (creator : (disk.directories id).creator = some self)
    (fresh : disk.Fresh ref) (named : artifactName name)
    (absent : disk.entry (.inside id name) = none)
    (marked : tidy → name ≠ ownerMarker → disk.Sealed pidOf id) :
    (disk.create (.inside id name) ref self).Orderly tidy born pidOf := by
  have edits : Edits self id disk (disk.create (.inside id name) ref self) :=
    .create fresh
  have different : ∀ other : FileRef, other.index < disk.nextFile →
      other ≠ ref := by
    rintro other index rfl
    exact index.ne fresh.1
  have blank : (disk.create (.inside id name) ref self).files ref =
      ⟨[], .privateFile, some self⟩ :=
    Function.update_self _ _ _
  have stays : ∀ other marker,
      disk.entry (.inside other ownerMarker) = some marker →
      (disk.create (.inside id name) ref self).entry
        (.inside other ownerMarker) = some marker ∧
      ((disk.create (.inside id name) ref self).files marker).content =
        (disk.files marker).content := by
    intro other marker found
    refine ⟨?_, ?_⟩
    · rw [entry_create, if_neg]
      · exact found
      · rintro same
        cases same
        rw [absent] at found
        cases found
    · rw [files_create
        (different marker (orderly.entries _ _ _ found).file)]
  refine orderly.edit edits ?_ ?_ ?_ ?_ ?_
  · intro file other found
    rw [entry_create] at found
    split at found
    · rename_i same
      cases same
      cases found
      refine ⟨older, ?_, ?_, ?_, named, ?_⟩
      · rw [fresh.1]
        exact Nat.lt_succ_self _
      · rw [blank, (edits.fixed id).1, creator]
      · rw [blank]
      · rintro rfl
        exact Function.update_self _ _ _
    · obtain ⟨-, index, madeBy, mode, kind, origin⟩ :=
        orderly.entries id file other found
      refine ⟨older, Nat.lt_succ_of_lt index, ?_, ?_, kind, ?_⟩
      · rw [files_create (different other index), (edits.fixed id).1]
        exact madeBy
      · rw [files_create (different other index)]
        exact mode
      · intro marker
        rw [edits.origin other index]
        exact origin marker
  · intro other file entryName _ found
    have index := (orderly.entries _ _ _ found).file
    rw [files_create (different file index)]
    exact ⟨rfl, rfl⟩
  · intro file other origin
    by_cases same : file = ref
    · subst same
      have slot : (disk.create (.inside id name) file self).origin file =
          some (.inside id name) := Function.update_self _ _ _
      rw [origin] at slot
      cases slot
      refine ⟨?_, older, self, 0, creator, by decide, ?_⟩
      · rw [fresh.1]
        exact Nat.lt_succ_self _
      · rw [blank]
        exact List.nil_prefix
    · have kept : (disk.create (.inside id name) ref self).origin file =
          disk.origin file := Function.update_of_ne same _ _
      rw [kept] at origin
      obtain ⟨index, within, text⟩ := orderly.text file other origin
      rw [files_create same]
      exact ⟨Nat.lt_succ_of_lt index, within, text⟩
  · intro _ other _ sealed
    exact sealed.of_edit edits fun marker found _ => stays other marker found
  · intro clean file other found notMarker
    rw [entry_create] at found
    have sealed : disk.Sealed pidOf id := by
      split at found
      · rename_i same
        cases same
        exact marked clean notMarker
      · exact orderly.sealed clean id file other found notMarker
    exact sealed.of_edit edits fun marker found _ => stays id marker found

theorem Edits.append (bytes : Bytes)
    (creator : (disk.files ref).creator = some self) :
    Edits self id disk (disk.append ref bytes) where
  root := rfl
  directories := rfl
  files := Nat.le_refl _
  fixed _ := ⟨rfl, rfl, rfl⟩
  others _ _ := rfl
  origin _ _ := rfl
  written other _ foreign := by
    refine Function.update_of_ne ?_ _ _
    rintro rfl
    exact foreign creator

private theorem files_append (bytes : Bytes) (other : FileRef) :
    ((disk.append ref bytes).files other).creator =
      (disk.files other).creator ∧
    ((disk.append ref bytes).files other).mode = (disk.files other).mode ∧
    ((disk.append ref bytes).files other).content =
      (disk.files other).content ++ if other = ref then bytes else [] := by
  by_cases same : other = ref
  · subst same
    simp [Disk.append, Disk.setFile]
  · simp [Disk.append, Disk.setFile, same]

/-- A process writes its artifact, or its marker before anything else is in
the directory. -/
theorem Orderly.append (orderly : disk.Orderly tidy born pidOf)
    (bytes : Bytes)
    (text : ∀ other, disk.origin ref = some (.inside other ownerMarker) →
      (∃ owner created, (disk.directories other).creator = some owner ∧
        0 ≤ created ∧ (disk.files ref).content ++ bytes <+:
          ownerText (pidOf owner) created (disk.directories other).name) ∧
      (tidy → ∀ file, file ≠ ownerMarker →
        disk.entry (.inside other file) = none))
    (creator : (disk.files ref).creator = some self) :
    (disk.append ref bytes).Orderly tidy born pidOf := by
  have edits : Edits self disk.nextDirectory disk (disk.append ref bytes) :=
    .append bytes creator
  have belongs : ∀ id file other, disk.entry (.inside id file) = some other →
      (disk.append ref bytes).Belongs id file other := by
    intro id file other found
    obtain ⟨directory, index, madeBy, mode, kind, origin⟩ :=
      orderly.entries id file other found
    refine ⟨directory, index, ?_, ?_, kind, origin⟩
    · rw [(files_append bytes other).1]
      exact madeBy
    · rw [(files_append bytes other).2.1]
      exact mode
  have seals : tidy → ∀ id file other,
      disk.entry (.inside id file) = some other → file ≠ ownerMarker →
        (disk.append ref bytes).Sealed pidOf id := by
    intro clean id file other found notMarker
    refine (orderly.sealed clean id file other found notMarker).of_edit edits ?_
    intro marker linked _
    refine ⟨linked, ?_⟩
    rw [(files_append bytes marker).2.2, if_neg, List.append_nil]
    rintro rfl
    have origin := (orderly.entries _ _ _ linked).origin rfl
    rw [(text id origin).2 clean file notMarker] at found
    cases found
  exact
    { linked := orderly.linked
      owner := orderly.owner
      entries := belongs
      text := by
        intro file other origin
        obtain ⟨index, within, held⟩ := orderly.text file other origin
        refine ⟨index, within, ?_⟩
        rw [(files_append bytes file).2.2]
        by_cases same : file = ref
        · subst same
          rw [if_pos rfl]
          exact (text other origin).1
        · rw [if_neg same, List.append_nil]
          exact held
      sealed := seals }

theorem Edits.detach (self : Process) (name : Name) :
    Edits self id disk (disk.detach (.inside id name)) :=
  .setEntries _

/-- An edit that creates and writes no file: every entry that is left was
there before, under the same name or one that is not the marker's. -/
theorem Orderly.relink (orderly : before.Orderly tidy born pidOf)
    (edits : Edits self id before after) (files : after.files = before.files)
    (nextFile : after.nextFile = before.nextFile)
    (origins : after.origin = before.origin)
    (entries : ∀ file ref, after.entry (.inside id file) = some ref →
      ∃ earlier, before.entry (.inside id earlier) = some ref ∧
        (file = earlier ∨ artifactName file ∧ file ≠ ownerMarker))
    (sealed : tidy → ∀ file ref, after.entry (.inside id file) = some ref →
      file ≠ ownerMarker → before.Sealed pidOf id ∧
        after.entry (.inside id ownerMarker) =
          before.entry (.inside id ownerMarker)) :
    after.Orderly tidy born pidOf := by
  refine orderly.edit edits ?_ ?_ ?_ ?_ ?_
  · intro file ref found
    obtain ⟨earlier, present, named⟩ := entries file ref found
    obtain ⟨directory, index, creator, mode, kind, origin⟩ :=
      orderly.entries id earlier ref present
    refine ⟨?_, ?_, ?_, ?_, ?_, ?_⟩
    · rw [edits.directories]
      exact directory
    · rw [nextFile]
      exact index
    · rw [files, (edits.fixed id).1]
      exact creator
    · rw [files]
      exact mode
    · rcases named with rfl | ⟨renamed, -⟩
      · exact kind
      · exact renamed
    · rintro rfl
      rcases named with rfl | ⟨-, other⟩
      · rw [origins]
        exact origin rfl
      · exact absurd rfl other
  · intro other ref file _ _
    rw [files]
    exact ⟨rfl, rfl⟩
  · intro ref other origin
    rw [origins] at origin
    rw [files, nextFile]
    exact orderly.text ref other origin
  · intro _ other different marked
    refine marked.of_edit edits fun marker found _ => ⟨?_, by rw [files]⟩
    rw [entry, edits.others other different]
    exact found
  · intro clean file ref found notMarker
    obtain ⟨marked, same⟩ := sealed clean file ref found notMarker
    refine marked.of_edit edits fun marker present _ => ⟨?_, by rw [files]⟩
    rw [same, present]

/-- A marker is taken away last. -/
theorem Orderly.detach (orderly : disk.Orderly tidy born pidOf)
    (last : tidy → name = ownerMarker → ∀ file, file ≠ ownerMarker →
      disk.entry (.inside id file) = none) :
    (disk.detach (.inside id name)).Orderly tidy born pidOf := by
  refine orderly.relink (.detach (0 : Process) name) rfl rfl rfl ?_ ?_
  · intro file ref found
    exact ⟨file, entry_of_detach found, Or.inl rfl⟩
  · intro clean file ref found notMarker
    have present := entry_of_detach found
    refine ⟨orderly.sealed clean id file ref present notMarker, ?_⟩
    rw [entry_detach, if_neg]
    rintro same
    cases same
    rw [last clean rfl file notMarker] at present
    cases present

theorem Edits.rename (self : Process) (source target : Name)
    (ref : FileRef) :
    Edits self id disk
      ((disk.detach (.inside id source)).attach (.inside id target) ref) where
  root := rfl
  directories := rfl
  files := Nat.le_refl _
  fixed other := by
    have first := @fixed_setEntries disk id
      ((disk.directories id).entries.erase source) other
    have second := @fixed_setEntries (disk.detach (.inside id source)) id
      (((disk.detach (.inside id source)).directories id).entries.insert
        target ref) other
    exact ⟨second.1.trans first.1, second.2.1.trans first.2.1,
      second.2.2.trans first.2.2⟩
  others other different :=
    (others_setEntries other different).trans
      (others_setEntries other different)
  origin _ _ := rfl
  written _ _ _ := rfl

/-- The partial file gets its final name. -/
theorem Orderly.rename (orderly : disk.Orderly tidy born pidOf)
    {source target : Name}
    (present : disk.entry (.inside id source) = some ref)
    (named : artifactName target) (fromOther : source ≠ ownerMarker)
    (toOther : target ≠ ownerMarker) :
    ((disk.detach (.inside id source)).attach (.inside id target)
      ref).Orderly tidy born pidOf := by
  refine orderly.relink (.rename (0 : Process) source target ref) rfl rfl rfl
    ?_ ?_
  · intro file other found
    rw [entry_attach] at found
    split at found
    · rename_i same
      cases same
      cases found
      exact ⟨source, present, Or.inr ⟨named, toOther⟩⟩
    · exact ⟨file, entry_of_detach found, Or.inl rfl⟩
  · intro clean _ _ _ _
    refine ⟨orderly.sealed clean id source ref present fromOther, ?_⟩
    rw [entry_attach, if_neg (by simpa using toOther.symm), entry_detach,
      if_neg (by simpa using fromOther.symm)]

theorem lookup_removeDirectory {candidate : Name} {node : Node}
    (found : (disk.removeDirectory name).root.lookup candidate =
      some node) :
    candidate ≠ name ∧ disk.root.lookup candidate = some node := by
  by_cases same : candidate = name
  · subst same
    simp [Disk.removeDirectory] at found
  · refine ⟨same, ?_⟩
    simpa [Disk.removeDirectory, AList.lookup_erase_ne same] using found

theorem Orderly.removeDirectory (orderly : disk.Orderly tidy born pidOf) :
    (disk.removeDirectory name).Orderly tidy born pidOf where
  linked candidate node found :=
    orderly.linked candidate node (lookup_removeDirectory found).2
  owner := orderly.owner
  entries id file ref found := by
    obtain ⟨directory, index, creator, mode, kind, origin⟩ :=
      orderly.entries id file ref found
    exact ⟨directory, index, creator, mode, kind, origin⟩
  text := orderly.text
  sealed := orderly.sealed

/-- Removing a directory of the actor or of a dead process. -/
theorem Confined.removeDirectory {focus : Option Nat}
    (focused : ∀ id, focus = some id → id < disk.nextDirectory →
      (disk.directories id).creator = some self)
    (removed : ∀ id owner, disk.root.lookup name = some (.directory id) →
      (disk.directories id).creator = some owner → alive owner = true →
        focus = some id) :
    Confined alive self focus disk (disk.removeDirectory name) where
  directories := Nat.le_refl _
  files := Nat.le_refl _
  focused := focused
  fixed _ _ := ⟨rfl, rfl⟩
  origin _ _ := rfl
  kept _ _ _ _ _ _ := rfl
  stays candidate id owner found creator lives other := by
    by_cases same : candidate = name
    · subst same
      exact absurd (removed id owner found creator lives) other
    · simpa [Disk.removeDirectory, AList.lookup_erase_ne same] using found
  written _ _ _ := rfl
  shrinks _ _ _ _ _ found := found

end Disk

end RymgaLoader.Native
