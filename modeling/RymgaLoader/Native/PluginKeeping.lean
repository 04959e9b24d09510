import RymgaLoader.Native.PluginSteps

/-!
# Calls in a plugin directory

What each call of a process keeps: the invariant, what the others rely on, and
what the process knows of its own entries, of its marker and of the marker it
has opened.
-/

namespace RymgaLoader.Native

open Interleaving

variable {self : Process} {actor : Option Process} {before after : Shared}

/-- The step changes only these entries and writes only to these files. -/
structure Shared.Stays (process : Process) (changed : Name → Prop)
    (written : FileRef → Prop) (before after : Shared) : Prop where
  alive : after.world.alive = before.world.alive
  pids : after.world.pidOf = before.world.pidOf
  born : after.world.born = before.world.born
  plugins : (after.world.standing process).plugins =
    (before.world.standing process).plugins
  reading : (after.world.standing process).reading =
    (before.world.standing process).reading
  noted : (after.world.standing process).noted =
    (before.world.standing process).noted
  drawn : ∀ name ∈ before.drawn, name ∈ after.drawn
  volume : after.world.disk.volume = before.world.disk.volume
  next : before.world.disk.nextFile ≤ after.world.disk.nextFile
  fixed : ∀ ref, ref.index < before.world.disk.nextFile →
    after.world.disk.origin ref = before.world.disk.origin ref ∧
    (after.world.disk.files ref).creator =
      (before.world.disk.files ref).creator
  entries : ∀ name, ¬changed name → after.world.disk.entry (.top name) =
    before.world.disk.entry (.top name)
  files : ∀ ref, ref.index < before.world.disk.nextFile → ¬written ref →
    after.world.disk.files ref = before.world.disk.files ref

/-- Nothing on disk changes. -/
abbrev Shared.Rests (self : Process) (before after : Shared) : Prop :=
  Shared.Stays self (fun _ => False) (fun _ => False) before after

theorem Shared.Stays.weaken {changed more : Name → Prop}
    {written others : FileRef → Prop}
    (stays : Shared.Stays self changed written before after)
    (names : ∀ name, changed name → more name)
    (refs : ∀ ref, written ref → others ref) :
    Shared.Stays self more others before after :=
  { stays with
    entries := fun name kept => stays.entries name (mt (names name) kept)
    files := fun ref older kept =>
      stays.files ref older (mt (refs ref) kept) }

theorem Shared.Turns.stays_of {changed : Name → Prop}
    {written : FileRef → Prop}
    (turns : Shared.Turns actor before after)
    (entries : ∀ name, ¬changed name → after.world.disk.entry (.top name) =
      before.world.disk.entry (.top name))
    (files : ∀ ref, ref.index < before.world.disk.nextFile → ¬written ref →
      after.world.disk.files ref = before.world.disk.files ref) :
    Shared.Stays self changed written before after where
  alive := turns.alive
  pids := turns.pids
  born := turns.born
  plugins := turns.plugins self
  reading := turns.reading self
  noted := turns.noted self
  drawn _ member := turns.drawn_mono member
  volume := turns.volume
  next := turns.files
  fixed := turns.fixed
  entries := entries
  files := files

/-- A step of a process keeps to the discipline. -/
theorem keeps_of_turns {call : Call} {answer : Answer call}
    (settled : before.Settled)
    (turns : Shared.Turns (some self) before after)
    (good : sparesForeign self call before answer) :
    sparing.Keeps self call before answer after where
  invariant := turns.settled settled
  rely other different living :=
    turns.spares (by simpa using different.symm) living
  good := good

private theorem spares_of_quiet {call : Call} {answer : Answer call}
    (quiet : call.changesDisk = false) :
    sparesForeign self call before answer := by
  cases call <;> first | cases quiet; done | exact True.intro

/-- A call that leaves the disk as it is. -/
theorem keeps_same {call : Call} {answer : Answer call}
    (settled : before.Settled) (plain : call.records = false)
    (names : ∀ name ∈ call.draws, pluginMarkerName name = true)
    (acted : pluginDirectory.act self call before answer after)
    (same : after.world.disk = before.world.disk)
    (good : sparesForeign self call before answer) :
    sparing.Keeps self call before answer after ∧
      Shared.Rests self before after := by
  have turns := Shared.Turns.same settled
    (unmoved_of_acted plain names acted) same
  refine ⟨keeps_of_turns settled turns good, turns.stays_of ?_ ?_⟩
  · rw [same]
    exact fun _ _ => rfl
  · rw [same]
    exact fun _ _ _ => rfl

private theorem draws_of_quiet {call : Call}
    (quiet : call.changesDisk = false) : call.draws = [] := by
  cases call <;> first | rfl | cases quiet

theorem keeps_quiet {call : Call} {answer : Answer call}
    (quiet : call.changesDisk = false) (plain : call.records = false)
    (settled : before.Settled)
    (acted : pluginDirectory.act self call before answer after) :
    sparing.Keeps self call before answer after ∧
      Shared.Rests self before after := by
  refine keeps_same settled plain ?_ acted
    (World.exec_disk quiet acted.1.2.1) (spares_of_quiet quiet)
  rw [draws_of_quiet quiet]
  rintro name ⟨⟩

/-- A deletion of a file of a dead process, or of the process's own and not
held. -/
theorem keeps_removal {name : Name} {answer : Bool}
    (settled : before.Settled)
    (acted : pluginDirectory.act self (.unlink (.top name)) before answer
      after)
    (allowed : ∀ ref, before.world.disk.entry (.top name) = some ref →
      ∃ owner, (before.world.disk.files ref).creator = some owner ∧
        (before.world.alive owner = false ∨
          owner = self ∧ before.world.Spared self name ref.inode)) :
    sparing.Keeps self (.unlink (.top name)) before answer after ∧
      Shared.Stays self (· = name) (fun _ => False) before after ∧
      ∀ ref, after.world.disk.entry (.top name) = some ref →
        before.world.disk.entry (.top name) = some ref := by
  rcases World.exec_unlink acted.1.2.1 with ⟨rfl, same⟩ | ⟨slot, rfl,
    resolved, -, same⟩
  · obtain ⟨keeps, rests⟩ := keeps_same settled rfl (by rintro name ⟨⟩) acted
      same trivial
    refine ⟨keeps, rests.weaken (fun _ => False.elim)
      (fun _ => False.elim), ?_⟩
    rw [same]
    exact fun _ found => found
  · cases resolved
    have turns : Shared.Turns (some self) before after := by
      refine .detach settled
        (unmoved_of_acted rfl (by rintro name ⟨⟩) acted) same ?_
      intro _ ref found
      obtain ⟨owner, creator, spared⟩ := allowed ref found
      refine ⟨owner, creator, spared.imp_right ?_⟩
      rintro ⟨rfl, free⟩
      exact ⟨rfl, free⟩
    refine ⟨keeps_of_turns settled turns allowed, turns.stays_of ?_ ?_, ?_⟩
    · intro other different
      rw [same, Disk.entry_detach, if_neg]
      simpa using different
    · rw [same]
      exact fun _ _ _ => rfl
    · intro ref found
      rw [same, Disk.entry_detach, if_pos rfl] at found
      cases found

/-- An entry that leads to a file of the process which it does not hold. -/
structure Owned (process : Process) (name : Name) (ref : FileRef)
    (shared : Shared) : Prop where
  alive : shared.world.alive process = true
  isHidden : hiddenName name = true
  linked : shared.world.disk.entry (.top name) = some ref
  creator : (shared.world.disk.files ref).creator = some process
  spared : shared.world.Spared process name ref.inode

/-- A marker name of the process: nobody else's file is there. -/
structure Mine (process : Process) (name : Name) (shared : Shared) : Prop where
  alive : shared.world.alive process = true
  drawn : name ∈ shared.drawn
  own : ∀ ref, shared.world.disk.entry (.top name) = some ref →
    (shared.world.disk.files ref).creator = some process
  spared : ∀ plugin ∈ (shared.world.standing process).plugins,
    plugin.marker ≠ name

/-- A marker of the process with this much written to it. -/
structure Marking (process : Process) (name : Name) (ref : FileRef)
    (content : Bytes) (shared : Shared) : Prop where
  owned : Owned process name ref shared
  drawn : name ∈ shared.drawn
  content : (shared.world.disk.files ref).content = content

/-- The inode number of the file a process is publishing. -/
structure Noted (process : Process) (inode : Nat) (shared : Shared) : Prop where
  alive : shared.world.alive process = true
  noted : (shared.world.standing process).noted = some inode
  spared : ∀ plugin ∈ (shared.world.standing process).plugins,
    plugin.fileId ≠ inode

section

variable {name : Name} {ref : FileRef} {content : Bytes} {inode : Nat}
  {changed : Name → Prop} {written : FileRef → Prop}

theorem Owned.stays (settled : before.Settled)
    (owned : Owned self name ref before)
    (stays : Shared.Stays self changed written before after)
    (kept : ¬changed name) : Owned self name ref after where
  alive := by
    rw [stays.alive, owned.alive]
  isHidden := owned.isHidden
  linked := by
    rw [stays.entries name kept, owned.linked]
  creator := by
    rw [(stays.fixed ref (settled.tended.linked name ref owned.linked).1).2,
      owned.creator]
  spared := by
    rw [World.Spared, stays.plugins]
    exact owned.spared

theorem owned_stable : sparing.Stable self (Owned self name ref) := by
  intro first second settled _ relied owned
  have spares := relied owned.alive
  refine ⟨spares.alive, owned.isHidden, ?_, ?_, ?_⟩
  · exact spares.kept name ref owned.isHidden owned.linked owned.creator
  · rw [(spares.fixed ref (settled.tended.linked name ref
      owned.linked).1).2, owned.creator]
  · rw [World.Spared, spares.standing]
    exact owned.spared

theorem Mine.stays (settled : before.Settled) (mine : Mine self name before)
    (stays : Shared.Stays self changed written before after)
    (kept : ∀ ref, after.world.disk.entry (.top name) = some ref →
      before.world.disk.entry (.top name) = some ref) :
    Mine self name after where
  alive := by
    rw [stays.alive, mine.alive]
  drawn := stays.drawn name mine.drawn
  own := by
    intro ref found
    have linked := kept ref found
    rw [(stays.fixed ref (settled.tended.linked name ref linked).1).2]
    exact mine.own ref linked
  spared := by
    rw [stays.plugins]
    exact mine.spared

theorem mine_stable : sparing.Stable self (Mine self name) := by
  intro first second settled _ relied mine
  have spares := relied mine.alive
  refine ⟨spares.alive, spares.drawn name mine.drawn, ?_, ?_⟩
  · intro ref found
    have linked := spares.gone name ref (Or.inl mine.drawn) found
    rw [(spares.fixed ref (settled.tended.linked name ref linked).1).2]
    exact mine.own ref linked
  · rw [spares.standing]
    exact mine.spared

theorem Marking.mine (marking : Marking self name ref content before) :
    Mine self name before where
  alive := marking.owned.alive
  drawn := marking.drawn
  own := by
    intro other found
    rw [marking.owned.linked] at found
    cases found
    exact marking.owned.creator
  spared plugin member := (marking.owned.spared plugin member).1

theorem Marking.stays (settled : before.Settled)
    (marking : Marking self name ref content before)
    (stays : Shared.Stays self changed written before after)
    (kept : ¬changed name) (unwritten : ¬written ref) :
    Marking self name ref content after where
  owned := marking.owned.stays settled stays kept
  drawn := stays.drawn name marking.drawn
  content := by
    rw [stays.files ref (settled.tended.linked name ref
      marking.owned.linked).1 unwritten, marking.content]

theorem marking_stable :
    sparing.Stable self (Marking self name ref content) := by
  intro first second settled settledAfter relied marking
  have spares := relied marking.owned.alive
  refine ⟨owned_stable first second settled settledAfter relied
    marking.owned, spares.drawn name marking.drawn, ?_⟩
  rw [spares.written name ref self marking.drawn (settled.tended.hidden name
    ref marking.owned.linked marking.owned.isHidden) marking.owned.creator
    (Or.inl rfl), marking.content]

theorem Noted.stays (noted : Noted self inode before)
    (stays : Shared.Stays self changed written before after) :
    Noted self inode after where
  alive := by
    rw [stays.alive, noted.alive]
  noted := by
    rw [stays.noted, noted.noted]
  spared := by
    rw [stays.plugins]
    exact noted.spared

theorem noted_stable : sparing.Stable self (Noted self inode) := by
  intro first second _ _ relied noted
  have spares := relied noted.alive
  refine ⟨spares.alive, ?_, ?_⟩
  · rw [spares.standing]
    exact noted.noted
  · rw [spares.standing]
    exact noted.spared

end

/-- A held plugin keeps its number from new files, and its marker keeps its
name. -/
theorem spared_of_fresh (settled : before.Settled) {name : Name}
    {ref : FileRef} (living : before.world.alive self = true)
    (fresh : before.world.disk.Fresh ref)
    (vacant : before.world.disk.entry (.top name) = none) :
    before.world.Spared self name ref.inode := by
  intro plugin member
  obtain ⟨-, ⟨anchor, linked, -, inode, -⟩, -, ⟨marker, -, placed, -⟩, -⟩ :=
    settled.held self living plugin member
  refine ⟨?_, ?_⟩
  · rintro rfl
    rw [vacant] at placed
    cases placed
  · rw [← inode]
    intro same
    refine fresh.2.2 ?_
    rw [← same]
    exact mem_inodes_of_entry linked

private theorem entry_plant {disk : Disk} {name other : Name} {ref : FileRef}
    {file : File} : (disk.plant name ref file).entry (.top other) =
      if other = name then some ref else disk.entry (.top other) := by
  have planted : (disk.plant name ref file).entry (.top other) =
      ((disk.setFile ref file).attach (.top name) ref).entry
        (.top other) := rfl
  rw [planted, Disk.entry_attach]
  simp only [Slot.top.injEq]
  rfl

/-- A file that the process has just made. -/
private theorem keeps_plant {call : Call} {answer : Answer call}
    {name : Name} {ref : FileRef} (settled : before.Settled)
    (plain : call.records = false)
    (names : ∀ name ∈ call.draws, pluginMarkerName name = true)
    (acted : pluginDirectory.act self call before answer after)
    (same : after.world.disk = before.world.disk.plant name ref
      ⟨[], .privateFile, some self⟩)
    (fresh : before.world.disk.Fresh ref)
    (vacant : before.world.disk.entry (.top name) = none)
    (isHidden : hiddenName name = true)
    (admitted : before.world.admits (some (name, some ref.inode)) = true)
    (undrawn : name ∉ before.drawn)
    (kind : name ∈ after.drawn ∨ pluginPartialName name = true)
    (good : sparesForeign self call before answer) :
    sparing.Keeps self call before answer after ∧
      Shared.Stays self (· = name) (fun _ => False) before after ∧
      Owned self name ref after ∧
      (after.world.disk.files ref).content = [] := by
  have turns : Shared.Turns (some self) before after :=
    .plant settled (unmoved_of_acted plain names acted) same fresh admitted
      undrawn (fun _ => vacant) (fun _ => rfl)
      (fun _ => ⟨kind, self, settled.born self acted.1.1, rfl⟩)
  have made : after.world.disk.files ref =
      ⟨[], .privateFile, some self⟩ := by
    rw [same]
    exact Function.update_self _ _ _
  refine ⟨keeps_of_turns settled turns good, turns.stays_of ?_ ?_,
    ⟨?_, isHidden, ?_, ?_, ?_⟩, ?_⟩
  · intro other different
    rw [same, entry_plant, if_neg different]
  · intro other older _
    rw [same]
    refine Function.update_of_ne ?_ _ _
    rintro rfl
    exact older.ne fresh.1
  · rw [turns.alive]
    exact acted.1.1
  · rw [same, entry_plant, if_pos rfl]
  · rw [made]
  · rw [World.Spared, turns.plugins]
    exact spared_of_fresh settled acted.1.1 fresh vacant
  · rw [made]

private theorem entry_of_absent {disk : Disk} {name : Name}
    (absent : disk.root.lookup name = none) :
    disk.entry (.top name) = none := by
  rw [Disk.entry, absent]

/-- The partial file. -/
theorem keeps_mkstemp {answer : Option (Name × FileRef)}
    (settled : before.Settled)
    (acted : pluginDirectory.act self .mkstemp before answer after)
    (met : undoubted self .mkstemp before answer) :
    sparing.Keeps self .mkstemp before answer after ∧
      after.world.alive self = true ∧
      ∀ name ref, answer = some (name, ref) →
        pluginPartialName name = true ∧ Owned self name ref after := by
  have living : after.world.alive self = true := by
    rw [(World.exec_frame acted.1.2.1).1]
    exact acted.1.1
  rcases World.exec_mkstemp acted.1.2.1 with ⟨rfl, same⟩ | ⟨name, ref, rfl,
    isPartial, absent, fresh, same⟩
  · exact ⟨(keeps_same settled rfl (by rintro name ⟨⟩) acted same trivial).1,
      living, by rintro name ref ⟨⟩⟩
  · have undrawn : name ∉ before.drawn := by
      intro member
      rw [not_partial_of_marker (settled.tended.drawn name member)]
        at isPartial
      cases isPartial
    obtain ⟨keeps, -, owned, -⟩ := keeps_plant settled rfl
      (by rintro name ⟨⟩) acted same fresh (entry_of_absent absent)
      (hiddenName_of_partialName isPartial) met.1 undrawn (Or.inr isPartial)
      trivial
    refine ⟨keeps, living, ?_⟩
    rintro _ _ ⟨⟩
    exact ⟨isPartial, owned⟩

/-- Nothing is under a marker name that nobody has asked for. -/
theorem vacant_of_undrawn (settled : before.Settled) {name : Name}
    (isMarker : pluginMarkerName name = true)
    (undrawn : name ∉ before.drawn) :
    before.world.disk.entry (.top name) = none := by
  cases found : before.world.disk.entry (.top name) with
  | none => rfl
  | some ref =>
      have isHidden := hiddenName_of_marker isMarker
      have origin := settled.tended.hidden name ref found isHidden
      obtain ⟨kind, -⟩ :=
        (settled.tended.origin name ref origin).2 isHidden
      rcases kind with drawn | isPartial
      · exact absurd drawn undrawn
      · rw [not_partial_of_marker isMarker] at isPartial
        cases isPartial

/-- The marker.  Whatever the outcome, the name is the process's own. -/
theorem keeps_newMarker {name : Name} {answer : OpenResult}
    (settled : before.Settled) (isMarker : pluginMarkerName name = true)
    (acted : pluginDirectory.act self (.openExcl (.top name)) before answer
      after)
    (met : undoubted self (.openExcl (.top name)) before answer) :
    sparing.Keeps self (.openExcl (.top name)) before answer after ∧
      Shared.Stays self (· = name) (fun _ => False) before after ∧
      Mine self name after ∧
      ∀ ref, answer = .opened ref → Marking self name ref [] after := by
  have undrawn : name ∉ before.drawn := met.2 name (List.mem_singleton_self _)
  have names : ∀ other ∈ (Call.openExcl (.top name)).draws,
      pluginMarkerName other = true := by
    intro other member
    rw [List.mem_singleton.mp member]
    exact isMarker
  have drawn : name ∈ after.drawn := by
    rw [acted.2]
    exact List.mem_append_right _ (List.mem_singleton_self _)
  have vacant := vacant_of_undrawn settled isMarker undrawn
  rcases World.exec_openExcl acted.1.2.1 with ⟨failed, same⟩ | ⟨ref, slot,
    rfl, resolved, -, fresh, same⟩
  · obtain ⟨keeps, rests⟩ := keeps_same settled rfl names acted same trivial
    refine ⟨keeps, rests.weaken (fun _ => False.elim)
      (fun _ => False.elim), ⟨?_, drawn, ?_, ?_⟩, fun ref opened =>
        absurd opened (failed ref)⟩
    · rw [rests.alive]
      exact acted.1.1
    · intro ref found
      rw [same, vacant] at found
      cases found
    · rw [rests.plugins]
      intro plugin member same
      obtain ⟨-, -, known, -⟩ :=
        settled.held self acted.1.1 plugin member
      rw [same] at known
      exact undrawn known
  · cases resolved
    obtain ⟨keeps, stays, owned, blank⟩ := keeps_plant settled rfl names
      acted same fresh vacant (hiddenName_of_marker isMarker) met.1 undrawn
      (Or.inl drawn) trivial
    have marking : Marking self name ref [] after := ⟨owned, drawn, blank⟩
    refine ⟨keeps, stays, marking.mine, ?_⟩
    rintro _ ⟨⟩
    exact marking

/-- The marker is written, with what the process has noted. -/
theorem keeps_markerText {name filename : Name} {ref : FileRef}
    {content bytes : Bytes} {volume file : Nat} {created : Int64}
    {answer : Option Nat} (settled : before.Settled)
    (marking : Marking self name ref content before)
    (noted : Noted self file before)
    (acted : pluginDirectory.act self (.write ref bytes) before answer after)
    (epoch : 0 ≤ created) (narrowVolume : volume < 2 ^ 64)
    (narrowFile : file < 2 ^ 64)
    (text : content ++ bytes <+: pluginText (before.world.pidOf self) created
      volume file filename) :
    sparing.Keeps self (.write ref bytes) before answer after ∧
      Shared.Stays self (fun _ => False) (· = ref) before after ∧
      Marking self name ref (content ++ bytes.take (answer.getD 0)) after := by
  rcases World.exec_write acted.1.2.1 with ⟨rfl, same⟩ | ⟨count, rfl, -,
    same⟩
  · obtain ⟨keeps, rests⟩ := keeps_same settled rfl (by rintro name ⟨⟩) acted
      same trivial
    have stays : Shared.Stays self (fun _ => False) (· = ref) before after :=
      rests.weaken (fun _ => id) (fun _ => False.elim)
    refine ⟨keeps, stays, ?_⟩
    rw [Option.getD_none, List.take_zero, List.append_nil]
    exact marking.stays settled rests id id
  · have owned := marking.owned
    have origin := settled.tended.hidden name ref owned.linked owned.isHidden
    have turns : Shared.Turns (some self) before after := by
      refine .setFile settled (unmoved_of_acted rfl (by rintro name ⟨⟩) acted)
        same rfl ?_
      intro other member placed
      rw [origin] at placed
      cases placed
      refine ⟨self, created, volume, file, filename, rfl, owned.alive,
        owned.creator, List.prefix_append _ _, epoch, narrowVolume,
        narrowFile, ?_, noted.noted, owned.spared⟩
      rw [marking.content]
      refine List.IsPrefix.trans ?_ text
      exact (List.prefix_append_right_inj _).mpr (List.take_prefix _ _)
    have stays : Shared.Stays self (fun _ => False) (· = ref) before
        after := by
      refine turns.stays_of ?_ ?_
      · rw [same]
        exact fun _ _ => rfl
      · intro other _ different
        rw [same]
        exact Function.update_of_ne different _ _
    refine ⟨keeps_of_turns settled turns ⟨owned.creator, fun plugin member =>
      (owned.spared plugin member).2⟩, stays, owned.stays settled stays id,
        stays.drawn name marking.drawn, ?_⟩
    rw [same, Option.getD_some, ← marking.content]
    simp [Disk.append, Disk.setFile]

/-- The copy is written. -/
theorem keeps_writeOutput {name : Name} {ref : FileRef}
    {interruptions : Nat} {bytes : Bytes} {answer : Transfer Nat}
    (settled : before.Settled) (isPartial : pluginPartialName name = true)
    (owned : Owned self name ref before)
    (acted : pluginDirectory.act self (.writeOutput interruptions ref bytes)
      before answer after) :
    sparing.Keeps self (.writeOutput interruptions ref bytes) before answer
        after ∧ Owned self name ref after := by
  rcases World.exec_writeOutput acted.1.2.1 with ⟨failed, same, -⟩ |
    ⟨count, rfl, -, same⟩
  · have good : sparesForeign self (.writeOutput interruptions ref bytes)
        before answer := by
      cases answer with
      | completed count => exact absurd rfl (failed count)
      | interrupted => exact True.intro
      | failed => exact True.intro
    obtain ⟨keeps, rests⟩ := keeps_same settled rfl (by rintro name ⟨⟩) acted
      same good
    exact ⟨keeps, owned.stays settled rests id⟩
  · have origin := settled.tended.hidden name ref owned.linked owned.isHidden
    have turns : Shared.Turns (some self) before after := by
      refine .setFile settled (unmoved_of_acted rfl (by rintro name ⟨⟩) acted)
        same rfl ?_
      intro other member placed
      rw [origin] at placed
      cases placed
      rw [not_partial_of_marker (settled.tended.drawn name member)]
        at isPartial
      cases isPartial
    have stays : Shared.Stays self (fun _ => False) (· = ref) before
        after := by
      refine turns.stays_of ?_ ?_
      · rw [same]
        exact fun _ _ => rfl
      · intro other _ different
        rw [same]
        exact Function.update_of_ne different _ _
    exact ⟨keeps_of_turns settled turns ⟨owned.creator, fun plugin member =>
      (owned.spared plugin member).2⟩, owned.stays settled stays id⟩

/-- The destination. -/
theorem keeps_link {source target : Name} {ref : FileRef} {answer : Bool}
    (settled : before.Settled) (isPartial : pluginPartialName source = true)
    (owned : Owned self source ref before)
    (isVisible : hiddenName target = false)
    (acted : pluginDirectory.act self (.link source target) before answer
      after)
    (met : undoubted self (.link source target) before answer) :
    sparing.Keeps self (.link source target) before answer after ∧
      Shared.Stays self (· = target) (fun _ => False) before after := by
  rcases World.exec_link acted.1.2.1 with ⟨rfl, same⟩ | ⟨other, rfl, found,
    -, same⟩
  · obtain ⟨keeps, rests⟩ := keeps_same settled rfl (by rintro name ⟨⟩) acted
      same trivial
    exact ⟨keeps, rests.weaken (fun _ => False.elim) (fun _ => False.elim)⟩
  · rw [owned.linked] at found
    cases found
    have origin := settled.tended.hidden source ref owned.linked
      owned.isHidden
    have plain : ∀ marker ∈ before.drawn,
        before.world.disk.origin ref ≠ some (.top marker) := by
      intro marker member placed
      rw [origin] at placed
      cases placed
      rw [not_partial_of_marker (settled.tended.drawn source member)]
        at isPartial
      cases isPartial
    have turns : Shared.Turns (some self) before after :=
      .attach settled (unmoved_of_acted rfl (by rintro name ⟨⟩) acted) same
        owned.linked plain isVisible met.1
    refine ⟨keeps_of_turns settled turns trivial, turns.stays_of ?_ ?_⟩
    · intro other different
      rw [same, Disk.entry_attach, if_neg]
      simpa using different
    · rw [same]
      exact fun _ _ _ => rfl

/-- A call after which the process goes by another number, one that is vouched
for. -/
private theorem keeps_record {call : Call} {answer : Answer call}
    (quiet : call.changesDisk = false) (settled : before.Settled)
    (acted : pluginDirectory.act self call before answer after)
    (vouched : ∀ owner inode, after.Vouched owner inode →
      before.world.disk.OnlyBy owner inode)
    (reads : ∀ ref, (after.world.standing self).reading = some ref →
      ∃ name ∈ before.drawn,
        before.world.disk.origin ref = some (.top name)) :
    sparing.Keeps self call before answer after ∧
      after.world.disk = before.world.disk ∧
      after.drawn = before.drawn := by
  obtain ⟨⟨living, done, -⟩, drawn⟩ := acted
  obtain ⟨alive, pids, born, others⟩ := World.exec_frame done
  obtain ⟨-, plugins, -, -⟩ := World.exec_standing done
  have disk := World.exec_disk quiet done
  rw [draws_of_quiet quiet, List.append_nil] at drawn
  have held : ∀ process, (after.world.standing process).plugins =
      (before.world.standing process).plugins := by
    intro process
    by_cases same : process = self
    · subst same
      exact plugins
    · rw [others process same]
  refine ⟨⟨⟨?_, ?_, ?_, ?_, ?_, ?_, ?_⟩, ?_, spares_of_quiet quiet⟩, disk,
    drawn⟩
  · rw [disk, drawn, born, pids]
    exact settled.tended
  · rw [disk]
    exact vouched
  · intro process ref alone opened
    rw [disk, drawn]
    by_cases same : process = self
    · subst same
      exact reads ref opened
    · rw [others process same] at opened
      rw [alive] at alone
      exact settled.reads process ref alone opened
  · rw [alive, born]
    exact settled.born
  · rw [pids, born]
    exact settled.pids
  · intro process alone plugin member
    rw [alive] at alone
    rw [held] at member
    obtain ⟨named, anchor, known, marker, markable⟩ :=
      settled.held process alone plugin member
    refine ⟨named, ?_, ?_, ?_, markable⟩
    · rw [disk]
      exact anchor
    · rw [drawn]
      exact known
    · rw [disk, pids]
      exact marker
  · intro process alone
    rw [alive] at alone
    rw [held]
    exact settled.apart process alone
  · intro other different alone
    refine .same disk drawn (others other different) ?_ ?_ born.ge ?_
    · rw [alive, alone]
    · intro process _ dead
      rw [alive, dead]
    · intro process _
      rw [pids]

private theorem exec_opens {world after : World} {name : Name}
    {answer : Option FileRef}
    (done : world.exec self (.openRead (.top name)) answer = some after) :
    (after.standing self).noted = (world.standing self).noted ∧
      ((after.standing self).reading = (world.standing self).reading ∨
        ∃ ref, answer = some ref ∧
          world.disk.entry (.top name) = some ref ∧
          (after.standing self).reading = some ref) ∧
      (∀ ref, answer = some ref →
        world.disk.entry (.top name) = some ref ∧
          (after.standing self).reading = some ref) := by
  unfold World.exec World.effect at done
  cases answer with
  | none =>
      cases done
      simp [World.withStanding]
  | some ref =>
      dsimp only at done
      split at done
      · rename_i found
        cases done
        have linked : world.disk.entry (.top name) = some ref :=
          (Disk.openFile_eq_some_iff.mp found).1
        simp [World.withStanding, linked]
      · cases done

/-- What a process has opened as the marker under this name. -/
structure Opened (process : Process) (name : Name) (ref : FileRef)
    (shared : Shared) : Prop where
  alive : shared.world.alive process = true
  reading : (shared.world.standing process).reading = some ref
  drawn : name ∈ shared.drawn
  origin : shared.world.disk.origin ref = some (.top name)
  only : ∀ other, shared.world.disk.entry (.top name) = some other →
    other = ref

theorem Opened.index {name : Name} {ref : FileRef}
    (opened : Opened self name ref before) (settled : before.Settled) :
    ref.index < before.world.disk.nextFile :=
  (settled.tended.origin name ref opened.origin).1

theorem Opened.stays {name : Name} {ref : FileRef} {changed : Name → Prop}
    {written : FileRef → Prop} (settled : before.Settled)
    (opened : Opened self name ref before)
    (stays : Shared.Stays self changed written before after)
    (kept : ∀ other, after.world.disk.entry (.top name) = some other →
      before.world.disk.entry (.top name) = some other) :
    Opened self name ref after where
  alive := by
    rw [stays.alive, opened.alive]
  reading := by
    rw [stays.reading, opened.reading]
  drawn := stays.drawn name opened.drawn
  origin := by
    rw [(stays.fixed ref (opened.index settled)).1, opened.origin]
  only other found := opened.only other (kept other found)

theorem opened_stable {name : Name} {ref : FileRef} :
    sparing.Stable self (Opened self name ref) := by
  intro first second settled _ relied opened
  have spares := relied opened.alive
  refine ⟨spares.alive, ?_, spares.drawn name opened.drawn, ?_, ?_⟩
  · rw [spares.standing]
    exact opened.reading
  · rw [(spares.fixed ref (opened.index settled)).1, opened.origin]
  · intro other found
    exact opened.only other
      (spares.gone name other (Or.inl opened.drawn) found)

/-- A marker is opened. -/
theorem keeps_openRead {name : Name} {answer : Option FileRef}
    (settled : before.Settled) (isMarker : pluginMarkerName name = true)
    (acted : pluginDirectory.act self (.openRead (.top name)) before answer
      after) :
    sparing.Keeps self (.openRead (.top name)) before answer after ∧
      after.world.alive self = true ∧
      ∀ ref, answer = some ref → Opened self name ref after := by
  obtain ⟨noted, reading, opens⟩ := exec_opens acted.1.2.1
  obtain ⟨alive, -, -, others⟩ := World.exec_frame acted.1.2.1
  have files := World.exec_disk rfl acted.1.2.1
  have living : after.world.alive self = true := by
    rw [alive]
    exact acted.1.1
  have marker : ∀ ref, before.world.disk.entry (.top name) = some ref →
      name ∈ before.drawn ∧
        before.world.disk.origin ref = some (.top name) := by
    intro ref found
    have isHidden := hiddenName_of_marker isMarker
    have origin := settled.tended.hidden name ref found isHidden
    obtain ⟨kind, -⟩ := (settled.tended.origin name ref origin).2 isHidden
    refine ⟨kind.resolve_right ?_, origin⟩
    rw [not_partial_of_marker isMarker]
    exact Bool.false_ne_true
  have drawn : after.drawn = before.drawn := by
    rw [acted.2]
    exact List.append_nil _
  have only : ∀ owner inode, after.Vouched owner inode →
      before.world.disk.OnlyBy owner inode := by
    intro owner inode vouched
    refine settled.vouched owner inode ?_
    cases vouched with
    | marker named linked creator recorded =>
        rw [files] at linked creator recorded
        rw [drawn] at named
        exact .marker named linked creator recorded
    | @reading process ref owner inode alone opened creator recorded =>
        rw [files] at creator recorded
        rw [alive] at alone
        by_cases same : process = self
        · subst same
          rcases reading with old | ⟨other, -, linked, now⟩
          · rw [old] at opened
            exact .reading alone opened creator recorded
          · rw [now] at opened
            cases opened
            exact .marker (marker ref linked).1 linked creator recorded
        · rw [others process same] at opened
          exact .reading alone opened creator recorded
    | noted alone own =>
        rw [alive] at alone
        by_cases same : owner = self
        · subst same
          rw [noted] at own
          exact .noted alone own
        · rw [others owner same] at own
          exact .noted alone own
  have reads : ∀ ref, (after.world.standing self).reading = some ref →
      ∃ name ∈ before.drawn,
        before.world.disk.origin ref = some (.top name) := by
    intro ref opened
    rcases reading with old | ⟨other, -, linked, now⟩
    · rw [old] at opened
      exact settled.reads self ref acted.1.1 opened
    · rw [now] at opened
      cases opened
      exact ⟨name, marker ref linked⟩
  refine ⟨(keeps_record rfl settled acted only reads).1, living, ?_⟩
  intro ref answered
  obtain ⟨linked, now⟩ := opens ref answered
  obtain ⟨known, origin⟩ := marker ref linked
  refine ⟨living, now, ?_, ?_, ?_⟩
  · rw [drawn]
    exact known
  · rw [files]
    exact origin
  · intro other found
    rw [files, linked] at found
    exact (Option.some.inj found).symm

private theorem exec_notes {world after : World} {inode : Nat}
    {answer : Unit}
    (done : world.exec self (.note inode) answer = some after) :
    (after.standing self).noted = some inode ∧
      (after.standing self).reading = (world.standing self).reading := by
  unfold World.exec World.effect at done
  cases done
  simp [World.withStanding]

/-- A process notes the inode number of its own file. -/
theorem keeps_note {name : Name} {ref : FileRef} {answer : Unit}
    (settled : before.Settled) (owned : Owned self name ref before)
    (acted : pluginDirectory.act self (.note ref.inode) before answer
      after) :
    sparing.Keeps self (.note ref.inode) before answer after ∧
      Owned self name ref after ∧ Noted self ref.inode after := by
  obtain ⟨noted, reading⟩ := exec_notes acted.1.2.1
  obtain ⟨alive, -, -, others⟩ := World.exec_frame acted.1.2.1
  obtain ⟨-, plugins, -, -⟩ := World.exec_standing acted.1.2.1
  have files := World.exec_disk rfl acted.1.2.1
  have only : before.world.disk.OnlyBy self ref.inode := by
    intro other candidate linked same
    rw [settled.tended.distinct other name candidate ref linked owned.linked
      same]
    exact owned.creator
  have drawn : after.drawn = before.drawn := by
    rw [acted.2]
    exact List.append_nil _
  have living : after.world.alive self = true := by
    rw [alive]
    exact acted.1.1
  have vouches : ∀ owner inode, after.Vouched owner inode →
      before.world.disk.OnlyBy owner inode := by
    intro owner inode vouched
    cases vouched with
    | marker named linked creator recorded =>
        rw [files] at linked creator recorded
        rw [drawn] at named
        exact settled.vouched owner inode
          (.marker named linked creator recorded)
    | @reading process ref owner inode alone opened creator recorded =>
        rw [files] at creator recorded
        rw [alive] at alone
        refine settled.vouched owner inode
          (.reading alone ?_ creator recorded)
        by_cases same : process = self
        · subst same
          rw [← reading, opened]
        · rw [← others process same, opened]
    | noted alone own =>
        rw [alive] at alone
        by_cases same : owner = self
        · subst same
          rw [noted] at own
          cases own
          exact only
        · rw [others owner same] at own
          exact settled.vouched owner inode (.noted alone own)
  have reads : ∀ candidate,
      (after.world.standing self).reading = some candidate →
        ∃ name ∈ before.drawn,
          before.world.disk.origin candidate = some (.top name) := by
    intro candidate opened
    rw [reading] at opened
    exact settled.reads self candidate acted.1.1 opened
  refine ⟨(keeps_record rfl settled acted vouches reads).1,
    ⟨living, owned.isHidden, ?_, ?_, ?_⟩, living, noted, ?_⟩
  · rw [files]
    exact owned.linked
  · rw [files]
    exact owned.creator
  · rw [World.Spared, plugins]
    exact owned.spared
  · rw [plugins]
    exact fun plugin member => (owned.spared plugin member).2

end RymgaLoader.Native
