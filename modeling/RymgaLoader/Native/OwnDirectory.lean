import RymgaLoader.Native.Sharing

/-!
# A process and its own directory

What a process knows of a directory it made and of the files it created
there, and what its calls do to both while other processes make calls of
their own.
-/

namespace RymgaLoader.Native

open Interleaving

/-- A linked directory of the process, with these entries and no published
artifact. -/
structure Owns (process : Process) (pid : Nat) (name : Name) (id : Nat)
    (entries : Name → Option FileRef) (world : World) : Prop where
  alive : world.alive process = true
  pid : world.pidOf process = pid
  linked : world.disk.root.lookup name = some (.directory id)
  creator : (world.disk.directories id).creator = some process
  entries : ∀ file, world.disk.entry (.inside id file) = entries file
  unheld : world.Unheld process name

/-- A file the process created in this slot, with what it wrote so far. -/
structure Stored (process : Process) (slot : Slot) (ref : FileRef)
    (content : Bytes) (world : World) : Prop where
  alive : world.alive process = true
  index : ref.index < world.disk.nextFile
  file : world.disk.files ref = ⟨content, .privateFile, some process⟩
  origin : world.disk.origin ref = some slot

/-- The entries after a deletion of `file`, which may fail; in tidy runs that
of a file other than the marker does not. -/
structure Unlinked (tidy : Prop) (file : Name)
    (entries left : Name → Option FileRef) : Prop where
  others : ∀ other, other ≠ file → left other = entries other
  fewer : ∀ ref, left file = some ref → entries file = some ref
  gone : tidy → file ≠ ownerMarker → left file = none

section

variable {tidy : Prop}
  {condition : Process → (call : Call) → World → Answer call → Prop}
  {self : Process} {pid : Nat} {name : Name} {id : Nat}
  {entries : Name → Option FileRef} {before after : World}

theorem lasting_alive :
    Lasting tidy condition self fun world => world.alive self = true where
  stable first second _ _ relied alive := (relied alive).alive
  rests first second rested alive := by rw [rested.alive, alive]

theorem Owns.rests (owns : Owns self pid name id entries before)
    (rested : before.Rests self after) :
    Owns self pid name id entries after := by
  obtain ⟨alive, process, linked, creator, listed, unheld⟩ := owns
  refine ⟨?_, ?_, ?_, ?_, ?_, ?_⟩
  · rw [rested.alive, alive]
  · rw [rested.pids, process]
  · rw [rested.disk, linked]
  · rw [rested.disk, creator]
  · intro file
    rw [rested.disk, listed]
  · intro artifact member
    rw [rested.artifacts] at member
    exact unheld artifact member

theorem Stored.rests {slot : Slot} {ref : FileRef} {content : Bytes}
    (stored : Stored self slot ref content before)
    (rested : before.Rests self after) :
    Stored self slot ref content after := by
  obtain ⟨alive, index, file, origin⟩ := stored
  refine ⟨?_, ?_, ?_, ?_⟩
  · rw [rested.alive, alive]
  · rw [rested.disk]
    exact index
  · rw [rested.disk, file]
  · rw [rested.disk, origin]

theorem lasting_owns :
    Lasting tidy condition self (Owns self pid name id entries) where
  stable := by
    rintro first second settled - relied
      ⟨alive, process, linked, creator, listed, unheld⟩
    have spares := relied alive
    obtain ⟨_, same, older, -⟩ := settled.disk.linked name _ linked
    cases same
    have kept := spares.disk.kept id older creator
    refine ⟨spares.alive, ?_, ?_, ?_, ?_, ?_⟩
    · rw [spares.pids self (settled.born self alive), process]
    · exact spares.disk.stays name id older linked creator
    · rw [kept, creator]
    · intro file
      rw [← listed file, Disk.entry, Disk.entry, kept]
    · intro artifact member
      rw [spares.standing] at member
      exact unheld artifact member
  rests _ _ rested owns := owns.rests rested

theorem lasting_stored {slot : Slot} {ref : FileRef} {content : Bytes} :
    Lasting tidy condition self (Stored self slot ref content) where
  stable := by
    rintro first second - - relied ⟨alive, index, file, origin⟩
    have spares := relied alive
    refine ⟨spares.alive, Nat.lt_of_lt_of_le index spares.disk.files, ?_, ?_⟩
    · rw [spares.disk.written ref index (by rw [file]), file]
    · rw [spares.disk.origin ref index, origin]
  rests _ _ rested stored := stored.rests rested

theorem Owns.resolve (owns : Owns self pid name id entries before)
    (file : Name) :
    before.disk.resolve (.path name file) = some (.inside id file) := by
  have found : before.disk.subdirectory name = some id :=
    Disk.subdirectory_eq_some_iff.mpr owns.linked
  rw [Disk.resolve, found]
  rfl

theorem Owns.lookup (owns : Owns self pid name id entries before)
    (file : Name) :
    before.disk.lookup (.path name file) = entries file := by
  rw [Disk.lookup, owns.resolve file, Option.bind_some, owns.entries]

theorem Owns.older (owns : Owns self pid name id entries before)
    (settled : before.Settled tidy) :
    id < before.disk.nextDirectory ∧
      (before.disk.directories id).name = name := by
  obtain ⟨_, same, older, named⟩ := settled.disk.linked name _ owns.linked
  cases same
  exact ⟨older, named⟩

/-- The only name of the directory is not that of a published artifact. -/
theorem Owns.apart (owns : Owns self pid name id entries before)
    (settled : before.Settled tidy) (chosen : Nat) (candidate : Name)
    (focused : some id = some chosen)
    (linked : before.disk.root.lookup candidate = some (.directory chosen)) :
    before.Unheld self candidate := by
  cases focused
  obtain ⟨_, same, -, named⟩ := settled.disk.linked candidate _ linked
  cases same
  rw [(owns.older settled).2] at named
  rw [← named]
  exact owns.unheld

/-- The directory after its own process changed the disk. -/
theorem Owns.changed {left : Name → Option FileRef} {call : Call}
    {answer : Answer call} (owns : Owns self pid name id entries before)
    (acted : acts self call before answer after)
    (linked : after.disk.root.lookup name = some (.directory id))
    (creator : (after.disk.directories id).creator =
      (before.disk.directories id).creator)
    (listed : ∀ file, after.disk.entry (.inside id file) = left file) :
    Owns self pid name id left after := by
  obtain ⟨alive, pids, -, -⟩ := World.exec_frame acted.2.1
  refine ⟨?_, ?_, linked, ?_, listed, ?_⟩
  · rw [alive, owns.alive]
  · rw [pids, owns.pid]
  · rw [creator, owns.creator]
  · intro artifact member
    rw [(World.exec_standing acted.2.1).1] at member
    exact owns.unheld artifact member

/-- Nobody waits for a name that was there before. -/
private theorem roots_of_same
    (root : after.disk.root = before.disk.root) (candidate : Name)
    (node : Node)
    (found : after.disk.root.lookup candidate = some node) :
    before.disk.root.lookup candidate = some node ∨
      ∀ process, before.alive process = true →
        (before.standing process).working ≠ some candidate := by
  rw [root] at found
  exact Or.inl found

theorem keeps_unlink {file : Name} {answer : Bool}
    (permits : Permits tidy condition) (settled : before.Settled tidy)
    (owns : Owns self pid name id entries before)
    (acted : acts self (.unlink (.path name file)) before answer after)
    (met : condition self (.unlink (.path name file)) before answer)
    (last : tidy → file = ownerMarker → ∀ other, other ≠ ownerMarker →
      entries other = none) :
    (owning tidy condition).Keeps self (.unlink (.path name file)) before
        answer after ∧
      ∃ left, Owns self pid name id left after ∧
        Unlinked tidy file entries left := by
  obtain ⟨older, -⟩ := owns.older settled
  rcases World.exec_unlink acted.2.1 with ⟨rfl, same⟩ | ⟨slot, rfl, resolved,
    -, same⟩
  · refine ⟨keeps_of_same settled acted same trivial, entries,
      owns.rests (rests_of_same acted same), fun _ _ => rfl,
      fun _ found => found, ?_⟩
    intro clean other
    rw [← owns.lookup file]
    exact ((permits _ _ _ _ met).2 clean).2 other
  · rw [owns.resolve file] at resolved
    cases resolved
    have edits : Disk.Edits self id before.disk after.disk := by
      rw [same]
      exact .detach self file
    refine ⟨keeps_of_confined settled acted
      (edits.confined fun _ => owns.creator) ?_ ?_ (owns.apart settled)
      (roots_of_same edits.root) ?_, Function.update entries file none, ?_,
      ?_, ?_, ?_⟩
    · rw [same]
      refine settled.disk.detach fun clean marker other different => ?_
      rw [owns.entries, last clean marker other different]
    · rw [same]
      exact settled.single.fewer fun _ _ _ _ => Disk.entry_of_detach
    · refine ⟨owns.unheld, ?_⟩
      intro ref owner found creator
      rw [owns.lookup, ← owns.entries] at found
      have made := (settled.disk.entries id file ref found).creator
      rw [creator, owns.creator] at made
      exact Option.some.inj made
    · refine owns.changed acted ?_ (edits.fixed id).1 ?_
      · rw [edits.root, owns.linked]
      · intro other
        rw [same, Disk.entry_detach, owns.entries, Function.update_apply]
        simp only [Slot.inside.injEq, true_and]
    · intro other different
      rw [Function.update_of_ne different]
    · intro ref found
      rw [Function.update_self] at found
      cases found
    · intro _ _
      rw [Function.update_self]

/-- A new directory is the process's own. -/
theorem keeps_newDirectory {call : Call} {answer : Answer call} {made : Name}
    (settled : before.Settled tidy) (acted : acts self call before answer after)
    (temp : directoryName made) (absent : before.disk.root.lookup made = none)
    (same : after.disk = before.disk.makeDirectory made self)
    (free : ∀ process, before.alive process = true →
      (before.standing process).working ≠ some made)
    (good : sparesLiving self call before answer) :
    (owning tidy condition).Keeps self call before answer after ∧
      Owns self (before.pidOf self) made before.disk.nextDirectory
        (fun _ => none) after := by
  have confined : Disk.Confined before.alive self
      (some before.disk.nextDirectory) before.disk after.disk := by
    rw [same]
    exact .makeDirectory absent
  obtain ⟨alive, pids, -, -⟩ := World.exec_frame acted.2.1
  refine ⟨keeps_of_confined settled acted confined ?_ ?_ ?_ ?_ good, ?_, ?_,
    ?_, ?_, ?_, ?_⟩
  · rw [same]
    exact settled.disk.makeDirectory temp (settled.born self acted.1)
  · rw [same]
    exact settled.single.fewer fun _ _ _ _ => Disk.entry_of_makeDirectory
  · intro id candidate chosen found
    cases chosen
    obtain ⟨_, node, older, -⟩ := settled.disk.linked candidate _ found
    cases node
    exact absurd older (Nat.lt_irrefl _)
  · intro candidate node found
    by_cases equal : candidate = made
    · subst equal
      exact Or.inr free
    · refine Or.inl ?_
      rw [same] at found
      simpa [Disk.makeDirectory, AList.lookup_insert_ne equal] using found
  · rw [alive]
    exact acted.1
  · rw [pids]
  · rw [same]
    exact AList.lookup_insert _
  · rw [same]
    simp [Disk.makeDirectory]
  · intro file
    rw [same]
    simp [Disk.makeDirectory, Disk.entry]
  · intro artifact member located
    rw [(World.exec_standing acted.2.1).1] at member
    obtain ⟨name, id, file, rfl, linked, -⟩ :=
      settled.held self acted.1 artifact member
    cases located
    rw [absent] at linked
    cases linked

theorem keeps_mkdtemp {answer : Option Name}
    (permits : Permits tidy condition) (settled : before.Settled tidy)
    (acted : acts self .mkdtemp before answer after)
    (met : condition self .mkdtemp before answer) :
    (owning tidy condition).Keeps self .mkdtemp before answer after ∧
      ∀ made, answer = some made →
        Owns self (before.pidOf self) made before.disk.nextDirectory
          (fun _ => none) after := by
  rcases World.exec_mkdtemp acted.2.1 with ⟨rfl, same⟩ | ⟨made, rfl, temp,
    absent, same⟩
  · exact ⟨keeps_of_same settled acted same trivial, by rintro made ⟨⟩⟩
  · obtain ⟨keeps, owns⟩ := keeps_newDirectory settled acted (.inl temp) absent
      same (permits _ _ _ _ met).1 trivial
    refine ⟨keeps, ?_⟩
    rintro _ ⟨⟩
    exact owns

/-- A new file in the directory. -/
theorem keeps_openExcl {file : Name} {answer : OpenResult}
    (settled : before.Settled tidy)
    (owns : Owns self pid name id entries before)
    (named : artifactName file)
    (marked : tidy → file ≠ ownerMarker →
      before.disk.Sealed before.pidOf id)
    (first : file ≠ ownerMarker → ∀ other ref, entries other = some ref →
      other = ownerMarker)
    (acted : acts self (.openExcl (.path name file)) before answer after) :
    (owning tidy condition).Keeps self (.openExcl (.path name file)) before
        answer after ∧
      ((∀ ref, answer ≠ .opened ref) ∧ before.Rests self after ∨
        ∃ ref, answer = .opened ref ∧
          Owns self pid name id (Function.update entries file (some ref))
            after ∧
          Stored self (.inside id file) ref [] after ∧
          ∀ slot other content, Stored self slot other content before →
            Stored self slot other content after) := by
  obtain ⟨older, -⟩ := owns.older settled
  rcases World.exec_openExcl acted.2.1 with ⟨failed, same⟩ | ⟨ref, slot,
    rfl, resolved, vacant, fresh, same⟩
  · exact ⟨keeps_of_same settled acted same trivial,
      Or.inl ⟨failed, rests_of_same acted same⟩⟩
  rw [owns.resolve file] at resolved
  cases resolved
  have edits : Disk.Edits self id before.disk after.disk := by
    rw [same]
    exact .create fresh
  have absent : before.disk.entry (.inside id file) = none :=
    of_decide_eq_true vacant
  obtain ⟨alive, -, -, -⟩ := World.exec_frame acted.2.1
  have living : after.alive self = true := by
    rw [alive, owns.alive]
  refine ⟨keeps_of_confined settled acted
    (edits.confined fun _ => owns.creator) ?_ ?_ (owns.apart settled)
    (roots_of_same edits.root) trivial, Or.inr ⟨ref, rfl, ?_, ?_, ?_⟩⟩
  · rw [same]
    exact settled.disk.create older owns.creator fresh named absent marked
  · by_cases marker : file = ownerMarker
    · refine settled.single.fewer fun chosen other candidate different => ?_
      rw [same, Disk.entry_create, if_neg]
      · exact fun found => found
      · rintro equal
        cases equal
        exact different marker
    · refine settled.single.only file
        (fun other candidate found different => ?_) edits.others
      rw [same, Disk.entry_create] at found
      split at found
      · rename_i equal
        exact (Slot.inside.inj equal).2
      · rw [owns.entries] at found
        exact absurd (first marker other candidate found) different
  · refine owns.changed acted ?_ (edits.fixed id).1 ?_
    · rw [edits.root, owns.linked]
    · intro other
      rw [same, Disk.entry_create, owns.entries, Function.update_apply]
      simp only [Slot.inside.injEq, true_and]
  · refine ⟨living, ?_, ?_, ?_⟩
    · rw [same, fresh.1]
      exact Nat.lt_succ_self _
    · rw [same]
      exact Function.update_self _ _ _
    · rw [same]
      exact Function.update_self _ _ _
  · intro slot other content stored
    have different : other ≠ ref := by
      rintro rfl
      exact stored.index.ne fresh.1
    refine ⟨living, Nat.lt_of_lt_of_le stored.index edits.files, ?_, ?_⟩
    · rw [same, ← stored.file]
      exact Function.update_of_ne different _ _
    · rw [edits.origin other stored.index, stored.origin]

/-- The process writes to a file of its own; a marker, only before anything
else is in its directory and only its text. -/
theorem keeps_write {slot : Slot} {ref : FileRef} {content bytes : Bytes}
    {answer : Option Nat} (settled : before.Settled tidy)
    (stored : Stored self slot ref content before)
    (acted : acts self (.write ref bytes) before answer after)
    (text : ∀ other count, slot = .inside other ownerMarker →
      (∃ owner created,
        (before.disk.directories other).creator = some owner ∧
        0 ≤ created ∧ content ++ bytes.take count <+:
          ownerText (before.pidOf owner) created
            (before.disk.directories other).name) ∧
      (tidy → ∀ file, file ≠ ownerMarker →
        before.disk.entry (.inside other file) = none)) :
    (owning tidy condition).Keeps self (.write ref bytes) before answer
        after ∧
      Stored self slot ref (content ++ bytes.take (answer.getD 0)) after ∧
      (∀ pid name id entries, Owns self pid name id entries before →
        Owns self pid name id entries after) ∧
      ∀ slot other content, other ≠ ref →
        Stored self slot other content before →
          Stored self slot other content after := by
  obtain ⟨alive, -, -, -⟩ := World.exec_frame acted.2.1
  have living : after.alive self = true := by
    rw [alive, stored.alive]
  rcases World.exec_write acted.2.1 with ⟨rfl, same⟩ | ⟨count, rfl, -, same⟩
  · have rested := rests_of_same acted same
    refine ⟨keeps_of_same settled acted same trivial, ?_, ?_, ?_⟩
    · rw [Option.getD_none, List.take_zero, List.append_nil]
      exact stored.rests rested
    · intro pid name id entries owns
      exact owns.rests rested
    · intro slot other content _ held
      exact held.rests rested
  have creator : (before.disk.files ref).creator = some self := by
    rw [stored.file]
  have edits : Disk.Edits self before.disk.nextDirectory before.disk
      after.disk := by
    rw [same]
    exact .append _ creator
  have nobody : before.disk.nextDirectory < before.disk.nextDirectory →
      (before.disk.directories before.disk.nextDirectory).creator =
        some self :=
    fun less => absurd less (Nat.lt_irrefl _)
  refine ⟨keeps_of_confined settled acted (edits.confined nobody) ?_ ?_ ?_
    (roots_of_same edits.root) trivial, ?_, ?_, ?_⟩
  · rw [same]
    refine settled.disk.append _ ?_ creator
    intro other origin
    rw [stored.origin] at origin
    cases origin
    rw [stored.file]
    exact text other count rfl
  · rw [same]
    exact settled.single
  · intro chosen candidate focused found
    cases focused
    obtain ⟨_, node, older, -⟩ := settled.disk.linked candidate _ found
    cases node
    exact absurd older (Nat.lt_irrefl _)
  · refine ⟨living, ?_, ?_, ?_⟩
    · rw [same]
      exact stored.index
    · rw [same]
      simp [Disk.append, Disk.setFile, stored.file]
    · rw [same]
      exact stored.origin
  · intro pid name id entries owns
    refine owns.changed acted ?_ (edits.fixed id).1 ?_
    · rw [edits.root, owns.linked]
    · intro file
      rw [same]
      exact owns.entries file
  · intro slot other content different held
    refine ⟨living, ?_, ?_, ?_⟩
    · rw [same]
      exact held.index
    · rw [same, ← held.file]
      exact Function.update_of_ne different _ _
    · rw [same]
      exact held.origin

/-- The partial file gets its final name. -/
theorem keeps_rename {source target : Name} {answer : Bool}
    (settled : before.Settled tidy)
    (owns : Owns self pid name id entries before)
    (named : artifactName target) (fromOther : source ≠ ownerMarker)
    (toOther : target ≠ ownerMarker)
    (acted : acts self (.rename name source target) before answer after) :
    (owning tidy condition).Keeps self (.rename name source target) before
        answer after ∧
      (answer = false ∧ before.Rests self after ∨
        ∃ ref, answer = true ∧ entries source = some ref ∧
          Owns self pid name id (Function.update
            (Function.update entries source none) target (some ref))
            after) := by
  rcases World.exec_rename acted.2.1 with ⟨rfl, same⟩ | ⟨located, ref, rfl,
    found, present, same⟩
  · exact ⟨keeps_of_same settled acted same trivial,
      Or.inl ⟨rfl, rests_of_same acted same⟩⟩
  have linked := Disk.subdirectory_eq_some_iff.mp found
  rw [owns.linked] at linked
  cases linked
  have edits : Disk.Edits self id before.disk after.disk := by
    rw [same]
    exact .rename self source target ref
  refine ⟨keeps_of_confined settled acted
    (edits.confined fun _ => owns.creator) ?_ ?_ (owns.apart settled)
    (roots_of_same edits.root) trivial, Or.inr ⟨ref, rfl, ?_, ?_⟩⟩
  · rw [same]
    exact settled.disk.rename present named fromOther toOther
  · refine settled.single.only target
      (fun other candidate there different => ?_) edits.others
    rw [same, Disk.entry_attach] at there
    split at there
    · rename_i equal
      exact (Slot.inside.inj equal).2
    · rw [Disk.entry_detach] at there
      split at there
      · cases there
      · rename_i other
        refine absurd ?_ other
        rw [settled.single id _ source candidate ref there present different
          fromOther]
  · rw [← owns.entries, present]
  · refine owns.changed acted ?_ (edits.fixed id).1 ?_
    · rw [edits.root, owns.linked]
    · intro file
      rw [same, Disk.entry_attach, Disk.entry_detach, owns.entries,
        Function.update_apply, Function.update_apply]
      simp only [Slot.inside.injEq, true_and]

theorem keeps_rmdir {answer : Bool} (settled : before.Settled tidy)
    (owns : Owns self pid name id entries before)
    (acted : acts self (.rmdir name) before answer after) :
    (owning tidy condition).Keeps self (.rmdir name) before answer after ∧
      after.alive self = true ∧
      ((∃ file, entries file ≠ none) →
        Owns self pid name id entries after) := by
  obtain ⟨alive, -, -, -⟩ := World.exec_frame acted.2.1
  have living : after.alive self = true := by
    rw [alive, owns.alive]
  rcases World.exec_rmdir acted.2.1 with ⟨rfl, same⟩ | ⟨located, rfl, found,
    empty, same⟩
  · exact ⟨keeps_of_same settled acted same trivial, living, fun _ =>
      owns.rests (rests_of_same acted same)⟩
  have linked := Disk.subdirectory_eq_some_iff.mp found
  rw [owns.linked] at linked
  cases linked
  have confined : Disk.Confined before.alive self (some id) before.disk
      after.disk := by
    rw [same]
    refine .removeDirectory ?_ ?_
    · intro chosen focused _
      cases focused
      exact owns.creator
    · intro chosen owner there _ _
      rw [owns.linked] at there
      cases there
      rfl
  refine ⟨keeps_of_confined settled acted confined ?_ ?_
    (owns.apart settled) ?_ ?_, living, ?_⟩
  · rw [same]
    exact settled.disk.removeDirectory
  · rw [same]
    exact settled.single
  · intro candidate node there
    rw [same] at there
    exact Or.inl (Disk.lookup_removeDirectory there).2
  · refine ⟨owns.unheld, ?_⟩
    intro chosen owner there creator
    rw [found] at there
    cases there
    rw [owns.creator] at creator
    exact (Option.some.inj creator).symm
  · rintro ⟨file, present⟩
    refine absurd ?_ present
    rw [← owns.entries]
    have blank : (before.disk.directories id).entries = ∅ :=
      AList.ext empty
    rw [Disk.entry, blank]
    rfl

end

end RymgaLoader.Native
