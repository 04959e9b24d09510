import RymgaLoader.Native.PluginKeeping

/-!
# Plugins among other processes

`rymga_platform_cleanup_plugins`, `rymga_platform_materialize_plugin` and
`rymga_platform_release_plugin` while other processes and foreign parties work
in the same directory.  Each is verified alone, against what the others are
relied upon to do.
-/

namespace RymgaLoader.Native

open Interleaving

variable {self : Process} {before after : Shared}

/-- Knowledge that survives what the others do and the process's own calls
that leave the disk as it is. -/
structure Lasts (process : Process) (assertion : Shared → Prop) : Prop where
  stable : sparing.Stable process assertion
  rests : ∀ before after, before.Settled →
    Shared.Rests process before after → assertion before → assertion after

/-- The process has not ended. -/
def Living (self : Process) (shared : Shared) : Prop :=
  shared.world.alive self = true

theorem lasts_living : Lasts self (Living self) where
  stable _ _ _ _ relied living := (relied living).alive
  rests first second _ rests living := by
    rw [Living, rests.alive]
    exact living

theorem Lasts.and {first second : Shared → Prop} (left : Lasts self first)
    (right : Lasts self second) :
    Lasts self fun shared => first shared ∧ second shared where
  stable := left.stable.and right.stable
  rests before after settled rests := And.imp
    (left.rests before after settled rests)
    (right.rests before after settled rests)

theorem Lasts.const (fact : Prop) : Lasts self fun _ => fact where
  stable _ _ _ _ _ holds := holds
  rests _ _ _ _ holds := holds

theorem Lasts.imp {fact : Prop} {assertion : Shared → Prop}
    (lasts : Lasts self assertion) :
    Lasts self fun shared => fact → assertion shared where
  stable before after settled settledAfter relied holds met :=
    lasts.stable before after settled settledAfter relied (holds met)
  rests before after settled rests holds met :=
    lasts.rests before after settled rests (holds met)

theorem Lasts.all {β : Type} {assertion : β → Shared → Prop}
    (lasts : ∀ value, Lasts self (assertion value)) :
    Lasts self fun shared => ∀ value, assertion value shared where
  stable before after settled settledAfter relied holds value :=
    (lasts value).stable before after settled settledAfter relied
      (holds value)
  rests before after settled rests holds value :=
    (lasts value).rests before after settled rests (holds value)

theorem Lasts.some {β : Type} {assertion : β → Shared → Prop}
    (lasts : ∀ value, Lasts self (assertion value)) :
    Lasts self fun shared => ∃ value, assertion value shared where
  stable := by
    rintro before after settled settledAfter relied ⟨value, holds⟩
    exact ⟨value, (lasts value).stable before after settled settledAfter
      relied holds⟩
  rests := by
    rintro before after settled rests ⟨value, holds⟩
    exact ⟨value, (lasts value).rests before after settled rests holds⟩

/-- A call that looks only. -/
theorem robust_looks {β : Type} {post : β → Shared → Prop}
    {assertion : Shared → Prop} {call : Call} {next : Answer call → Os β}
    (lasts : Lasts self assertion) (holds : assertion before)
    (quiet : call.changesDisk = false) (plain : call.records = false)
    (rest : ∀ middle answer after, middle.Settled → assertion middle →
      pluginDirectory.act self call middle answer after → assertion after →
        sparing.Robust self post (next answer) after) :
    sparing.Robust self post (.call call next) before := by
  refine Discipline.Robust.call lasts.stable holds ?_
  rintro middle answer after settled here ⟨acted, -⟩
  obtain ⟨keeps, rests⟩ := keeps_quiet quiet plain settled acted
  exact ⟨keeps, rest middle answer after settled here acted
    (lasts.rests middle after settled rests here)⟩

/-- A call that looks only, whatever it answers. -/
theorem robust_asks {β : Type} {post : β → Shared → Prop}
    {assertion : Shared → Prop} {call : Call} {next : Answer call → Os β}
    (lasts : Lasts self assertion) (holds : assertion before)
    (quiet : call.changesDisk = false) (plain : call.records = false)
    (rest : ∀ answer after, assertion after →
      sparing.Robust self post (next answer) after) :
    sparing.Robust self post (.call call next) before :=
  robust_looks lasts holds quiet plain
    fun _ answer after _ _ _ => rest answer after

/-- These bytes are the beginning of the marker that is open. -/
structure Reads (process : Process) (name : Name) (ref : FileRef)
    (bytes : Bytes) (shared : Shared) : Prop where
  opened : Opened process name ref shared
  text : bytes <+: (shared.world.disk.files ref).content

/-- The marker that is open records this number, and its process is dead. -/
structure Condemned (process : Process) (name : Name) (ref : FileRef)
    (owner : Process) (file : Nat) (shared : Shared) : Prop where
  opened : Opened process name ref shared
  creator : (shared.world.disk.files ref).creator = some owner
  born : owner < shared.world.born
  dead : shared.world.alive owner = false
  recorded : recordedFile (shared.world.disk.files ref).content = some file

variable {name : Name} {ref : FileRef} {bytes : Bytes} {owner : Process}
  {file : Nat}

theorem lasts_opened : Lasts self (Opened self name ref) where
  stable := opened_stable
  rests first second settled rests opened := by
    refine opened.stays settled rests ?_
    intro other found
    rw [rests.entries name id] at found
    exact found

theorem lasts_reads : Lasts self (Reads self name ref bytes) where
  stable := by
    rintro first second settled settledAfter relied ⟨opened, text⟩
    refine ⟨opened_stable first second settled settledAfter relied opened,
      text.trans ?_⟩
    exact (relied opened.alive).grows name ref opened.drawn opened.origin
  rests := by
    rintro first second settled rests ⟨opened, text⟩
    refine ⟨lasts_opened.rests first second settled rests opened, ?_⟩
    rw [rests.files ref (opened.index settled) id]
    exact text

theorem condemned_stable :
    sparing.Stable self (Condemned self name ref owner file) := by
  rintro first second settled settledAfter relied
    ⟨opened, creator, born, dead, recorded⟩
  have spares := relied opened.alive
  have same := spares.written name ref owner opened.drawn opened.origin
    creator (Or.inr dead)
  refine ⟨opened_stable first second settled settledAfter relied opened, ?_,
    Nat.lt_of_lt_of_le born spares.born, spares.dead owner born dead, ?_⟩
  · rw [same, creator]
  · rw [same, recorded]

/-- Deleting an entry leaves the marker condemned. -/
theorem Condemned.stays {changed : Name → Prop} (settled : before.Settled)
    (condemned : Condemned self name ref owner file before)
    (stays : Shared.Stays self changed (fun _ => False) before after)
    (kept : ∀ other, after.world.disk.entry (.top name) = some other →
      before.world.disk.entry (.top name) = some other) :
    Condemned self name ref owner file after where
  opened := condemned.opened.stays settled stays kept
  creator := by
    rw [stays.files ref (condemned.opened.index settled) id,
      condemned.creator]
  born := by
    rw [stays.born]
    exact condemned.born
  dead := by
    rw [stays.alive, condemned.dead]
  recorded := by
    rw [stays.files ref (condemned.opened.index settled) id,
      condemned.recorded]

theorem lasts_condemned :
    Lasts self (Condemned self name ref owner file) where
  stable := condemned_stable
  rests first second settled rests condemned := by
    refine condemned.stays settled rests ?_
    intro other found
    rw [rests.entries name id] at found
    exact found

/-- An examination that ends without a record. -/
private def Judged (self : Process) (name : Name)
    (record : Option PluginRecord) (shared : Shared) : Prop :=
  Living self shared ∧ ∀ found, record = some found →
    ∃ ref owner, Condemned self name ref owner found.file shared

private theorem lasts_judged {record : Option PluginRecord} :
    Lasts self (Judged self name record) :=
  lasts_living.and (Lasts.all fun _ => Lasts.imp (Lasts.some fun _ =>
    Lasts.some fun _ => lasts_condemned))

private theorem judged_none (living : Living self before) :
    Judged self name none before :=
  ⟨living, by rintro found ⟨⟩⟩

/-- A process whose identifier nobody has is dead. -/
private theorem dead_of_noPid {world : World} (born : owner < world.born)
    (missing : world.hasPid (world.pidOf owner) = false) :
    world.alive owner = false := by
  rw [← Bool.not_eq_true]
  intro living
  have found : world.hasPid (world.pidOf owner) = true := by
    rw [World.hasPid, List.any_eq_true]
    exact ⟨owner, List.mem_range.mpr born, by simp [living]⟩
  rw [found] at missing
  cases missing

/-- The process named by what was read of a marker. -/
private theorem Reads.condemns {pid created : Int} {volume : Nat}
    {hex : Bytes} (settled : before.Settled)
    (reads : Reads self name ref bytes before)
    (scanned : scanPlugin bytes = some (pid, created, volume, file, hex))
    (missing : before.world.hasPid pid = false) :
    ∃ owner, Condemned self name ref owner file before := by
  have opened := reads.opened
  obtain ⟨owner, time, device, inode, filename, creator, epoch, narrowVolume,
    narrowFile, text⟩ := settled.tended.text name ref opened.drawn
      opened.origin
  have isHidden := hiddenName_of_marker
    (settled.tended.drawn name opened.drawn)
  obtain ⟨-, maker, born, same⟩ :=
    (settled.tended.origin name ref opened.origin).2 isHidden
  rw [creator] at same
  cases same
  have small := (settled.pids owner born).2
  obtain ⟨rfl, -, -⟩ := scanPlugin_of_cut (by rw [intMax] at small; omega)
    epoch narrowVolume narrowFile (reads.text.trans text) scanned
  exact ⟨owner, opened, creator, born, dead_of_noPid born missing,
    recordedFile_grows (recordedFile_of_scanPlugin scanned) reads.text⟩

theorem readMarker_shared (living : Living self before)
    (isMarker : pluginMarkerName name = true) :
    sparing.Robust self (fun content shared => Living self shared ∧
        ∀ bytes, content = some bytes → ∃ ref, Reads self name ref bytes
          shared) (readMarker (.top name) 799) before := by
  have lasts : ∀ content : Option Bytes, Lasts self fun shared =>
      Living self shared ∧ ∀ bytes, content = some bytes →
        ∃ ref, Reads self name ref bytes shared :=
    fun content => lasts_living.and (Lasts.all fun _ => Lasts.imp
      (Lasts.some fun _ => lasts_reads))
  have refuse : ∀ shared, Living self shared →
      sparing.Robust self (fun content shared => Living self shared ∧
        ∀ bytes, content = some bytes → ∃ ref, Reads self name ref bytes
          shared) (.done none) shared := by
    intro shared living
    exact .done (lasts none).stable ⟨living, by rintro bytes ⟨⟩⟩
  simp only [readMarker, Program.perform_bind]
  refine Discipline.Robust.call lasts_living.stable living ?_
  rintro middle answer shared settled - ⟨acted, -⟩
  obtain ⟨keeps, living, opens⟩ := keeps_openRead settled isMarker acted
  refine ⟨keeps, ?_⟩
  cases answer with
  | none => exact refuse shared living
  | some marker =>
      refine robust_looks lasts_opened (opens marker rfl) rfl rfl ?_
      intro middle content read settled here acted opened
      cases content with
      | none => exact refuse read opened.alive
      | some content =>
          have reads : Reads self name marker content read := by
            refine ⟨opened, ?_⟩
            rw [World.exec_disk rfl acted.1.2.1,
              World.exec_read acted.1.2.1]
            exact List.take_prefix _ _
          dsimp only
          split
          · exact refuse read opened.alive
          refine robust_asks lasts_reads reads rfl rfl ?_
          intro info after reads
          cases info with
          | none => exact refuse after reads.opened.alive
          | some info =>
              dsimp only
              split
              · refine .done (lasts (some content)).stable
                  ⟨reads.opened.alive, ?_⟩
                rintro _ ⟨⟩
                exact ⟨marker, reads⟩
              · exact refuse after reads.opened.alive

/-- `parse_plugin_marker` reports the markers of dead processes only. -/
theorem parsePluginMarker_shared (living : Living self before)
    (isMarker : pluginMarkerName name = true) :
    sparing.Robust self (Judged self name) (parsePluginMarker name)
      before := by
  have refuse : ∀ shared, Living self shared →
      sparing.Robust self (Judged self name) (.done none) shared :=
    fun shared living => .done lasts_judged.stable (judged_none living)
  unfold parsePluginMarker
  refine Discipline.Robust.bind (readMarker_shared living isMarker) ?_
  rintro content shared ⟨living, found⟩
  cases content with
  | none => exact refuse shared living
  | some bytes =>
      obtain ⟨ref, reads⟩ := found bytes rfl
      dsimp only
      cases scanned : scanPlugin bytes with
      | none => exact refuse shared living
      | some record =>
          obtain ⟨pid, created, volume, file, hex⟩ := record
          dsimp only
          split
          · exact refuse shared living
          unfold deadProcess
          split
          · exact refuse shared living
          simp only [Program.perform_bind, Program.call_bind]
          refine robust_looks lasts_reads reads rfl rfl ?_
          intro middle answer after settled here acted reads
          cases answer with
          | delivered => exact refuse after reads.opened.alive
          | notPermitted => exact refuse after reads.opened.alive
          | noSuchProcess =>
              have missing := World.exec_kill acted.1.2.1 (by decide)
              obtain ⟨owner, condemned⟩ := here.condemns settled scanned
                missing
              obtain ⟨-, rests⟩ := keeps_quiet rfl rfl settled acted
              have still := lasts_condemned.rests middle after settled rests
                condemned
              refine .done lasts_judged.stable
                ⟨still.opened.alive, ?_⟩
              rintro found same
              obtain ⟨filename, -, rfl⟩ := Option.map_eq_some_iff.mp same
              exact ⟨ref, owner, still⟩

/-- The file under this name is one that the process may delete. -/
def Allows (self : Process) (name : Name) (shared : Shared) (ref : FileRef) :
    Prop :=
  ∃ owner < shared.world.born,
    (shared.world.disk.files ref).creator = some owner ∧
      (shared.world.alive owner = false ∨
        owner = self ∧ shared.world.Spared self name ref.inode)

/-- The process has just read the identity of such a file. -/
structure Deletable (process : Process) (name : Name) (shared : Shared) :
    Prop where
  alive : shared.world.alive process = true
  checked : (shared.world.standing process).checked = some name
  allows : ∀ ref, shared.world.disk.entry (.top name) = some ref →
    Allows process name shared ref

theorem deletable_stable : sparing.Stable self (Deletable self name) := by
  rintro first second settled - relied ⟨alive, checked, allows⟩
  have spares := relied alive
  refine ⟨spares.alive, ?_, ?_⟩
  · rw [spares.standing]
    exact checked
  · intro ref found
    have linked := spares.gone name ref (Or.inr checked) found
    obtain ⟨owner, born, creator, safe⟩ := allows ref linked
    refine ⟨owner, Nat.lt_of_lt_of_le born spares.born, ?_, ?_⟩
    · rw [(spares.fixed ref (settled.tended.linked name ref linked).1).2,
        creator]
    · refine safe.imp (spares.dead owner born) ?_
      rintro ⟨rfl, spared⟩
      refine ⟨rfl, ?_⟩
      rw [World.Spared, spares.standing]
      exact spared

theorem exec_examines {world after : World} {info : Stat}
    (done : world.exec self (.fstatat (.top name)) (some info) =
      some after) :
    world.disk.stat (.top name) = some info ∧
      (after.standing self).checked = some name := by
  unfold World.exec World.effect at done
  dsimp only at done
  split at done
  · rename_i told
    cases done
    exact ⟨told, by simp [World.withStanding]⟩
  · cases done

/-- Only a file has the identity of a regular file. -/
private theorem entry_of_stat {disk : Disk} {info : Stat}
    (flat : ∀ id, (disk.directories id).mode.regular = false)
    (told : disk.stat (.top name) = some info)
    (regular : info.mode.regular = true) :
    ∃ ref, disk.entry (.top name) = some ref ∧ ref.inode = info.inode := by
  cases found : disk.entry (.top name) with
  | some ref =>
      have same : disk.stat (.top name) = some (disk.statFile ref) := by
        simp [Disk.stat, Disk.lookup, Disk.resolve, found]
      rw [same] at told
      cases told
      exact ⟨ref, rfl, rfl⟩
  | none =>
      have absent : disk.stat (.top name) =
          (disk.subdirectory name).map fun id =>
            ({ volume := disk.volume, inode := 0, size := 0,
               mode := (disk.directories id).mode } : Stat) := by
        simp [Disk.stat, Disk.lookup, Disk.resolve, found]
      rw [absent] at told
      obtain ⟨id, -, rfl⟩ := Option.map_eq_some_iff.mp told
      rw [flat id] at regular
      cases regular

/-- An entry is deleted only if its file has the identity that is vouched
for; `left` is what the process still knows then. -/
theorem removeSame_shared {assertion left : Shared → Prop}
    {accepts : Mode → Bool} {identity : Nat × Nat}
    (regular : ∀ mode, accepts mode = true → mode.regular = true)
    (lasts : Lasts self assertion)
    (living : ∀ shared, assertion shared → Living self shared)
    (allows : ∀ shared : Shared, shared.Settled → assertion shared → ∀ ref,
      shared.world.disk.entry (.top name) = some ref →
        ref.inode = identity.2 → Allows self name shared ref)
    (removes : ∀ first second : Shared, first.Settled →
      Shared.Stays self (· = name) (fun _ => False) first second →
      (∀ ref, second.world.disk.entry (.top name) = some ref →
        first.world.disk.entry (.top name) = some ref) →
      assertion first → left second)
    (stable : sparing.Stable self left)
    (weaker : ∀ shared, assertion shared → left shared)
    (holds : assertion before) :
    sparing.Robust self (fun _ => left)
      (removeSame accepts identity name) before := by
  have refuse : ∀ shared, assertion shared →
      sparing.Robust self (fun _ => left) (.done ()) shared :=
    fun shared holds => .done stable (weaker shared holds)
  simp only [removeSame, fileIdentity, Program.perform_bind,
    Program.call_bind]
  refine robust_looks lasts holds rfl rfl ?_
  intro middle answer after settled here acted holds
  cases answer with
  | none => exact refuse after holds
  | some info =>
      obtain ⟨told, checked⟩ := exec_examines acted.1.2.1
      dsimp only
      by_cases accepted : accepts info.mode = true
      · rw [if_pos accepted]
        simp only [Program.pure_eq_done, Program.done_bind]
        by_cases same : some (info.volume, info.inode) = some identity
        · rw [if_pos same]
          cases same
          obtain ⟨ref, linked, inode⟩ := entry_of_stat settled.tended.flat
            told (regular info.mode accepted)
          have disk := World.exec_disk rfl acted.1.2.1
          obtain ⟨-, rests⟩ := keeps_quiet rfl rfl settled acted
          have deletable : Deletable self name after := by
            refine ⟨living after holds, checked, ?_⟩
            intro other found
            rw [disk, linked] at found
            cases found
            obtain ⟨owner, born, creator, safe⟩ :=
              allows middle settled here ref linked inode
            refine ⟨owner, ?_, ?_, ?_⟩
            · rw [rests.born]
              exact born
            · rw [disk, creator]
            · refine safe.imp (fun dead => ?_) (And.imp id fun spared => ?_)
              · rw [rests.alive, dead]
              · rw [World.Spared, rests.plugins]
                exact spared
          refine Discipline.Robust.call
            (lasts.stable.and deletable_stable) ⟨holds, deletable⟩ ?_
          rintro first answer second settled ⟨holds, deletable⟩ ⟨acted, -⟩
          obtain ⟨keeps, stays, shrinks⟩ := keeps_removal settled acted
            fun ref found => by
              obtain ⟨owner, -, allowed⟩ := deletable.allows ref found
              exact ⟨owner, allowed⟩
          exact ⟨keeps, .done stable
            (removes first second settled stays shrinks holds)⟩
        · rw [if_neg same]
          exact refuse after holds
      · rw [if_neg accepted]
        simp only [Program.pure_eq_done, Program.done_bind]
        rw [if_neg (by simp)]
        exact refuse after holds

theorem regular_of_ownRegular (mode : Mode)
    (accepted : Mode.ownRegular mode = true) : mode.regular = true := by
  simp only [Mode.ownRegular, Bool.and_eq_true] at accepted
  exact accepted.1

/-- Whatever has the recorded number is of the dead process. -/
private theorem Condemned.allows {candidate : Name} (settled : before.Settled)
    (condemned : Condemned self name ref owner file before)
    {other : FileRef}
    (found : before.world.disk.entry (.top candidate) = some other)
    (same : other.inode = file) : Allows self candidate before other := by
  have vouched : before.Vouched owner file :=
    .reading condemned.opened.alive condemned.opened.reading
      condemned.creator condemned.recorded
  exact ⟨owner, condemned.born,
    settled.vouched owner file vouched candidate other found same,
    Or.inl condemned.dead⟩

theorem removeCandidates_shared {wanted : Name → Bool} {volume : Nat}
    (candidates : List Name)
    (condemned : Condemned self name ref owner file before) :
    sparing.Robust self
      (fun _ => Condemned self name ref owner file)
      (removeCandidates Mode.ownRegular wanted (volume, file) candidates)
      before := by
  induction candidates generalizing before with
  | nil =>
      rw [removeCandidates]
      refine robust_asks lasts_condemned condemned rfl rfl ?_
      intro _ after condemned
      exact .done condemned_stable condemned
  | cons candidate candidates ih =>
      rw [removeCandidates]
      split
      · refine Discipline.Robust.bind (removeSame_shared
          regular_of_ownRegular lasts_condemned
          (fun _ condemned => condemned.opened.alive)
          (fun _ settled condemned other found same =>
            condemned.allows settled found same) ?_ condemned_stable
          (fun _ => id) condemned) ?_
        · intro first second settled stays shrinks condemned
          refine condemned.stays settled stays fun other found => ?_
          by_cases same : name = candidate
          · subst same
            exact shrinks other found
          · rw [stays.entries name same] at found
            exact found
        · intro _ after condemned
          exact ih condemned
      · exact ih condemned

private theorem sweep_shared {record : PluginRecord}
    (condemned : Condemned self name ref owner record.file before) :
    sparing.Robust self (fun swept shared => Living self shared ∧
        (swept = true → Condemned self name ref owner record.file shared))
      (posixCleaner.sweep record) before := by
  have stable : ∀ swept : Bool, sparing.Stable self fun shared =>
      Living self shared ∧ (swept = true →
        Condemned self name ref owner record.file shared) :=
    fun swept => (lasts_living.and lasts_condemned.imp).stable
  simp only [posixCleaner, Program.perform_bind]
  refine robust_asks lasts_condemned condemned rfl rfl ?_
  intro candidates after condemned
  cases candidates with
  | none =>
      exact .done (stable false) ⟨condemned.opened.alive, by rintro ⟨⟩⟩
  | some candidates =>
      refine Discipline.Robust.bind
        (removeCandidates_shared candidates condemned) ?_
      intro _ after condemned
      exact .done (stable true) ⟨condemned.opened.alive, fun _ => condemned⟩

theorem posixSettle_shared (living : Living self before)
    (isMarker : pluginMarkerName name = true) :
    sparing.Robust self (fun _ => Living self) (posixCleaner.settle name)
      before := by
  have rest : ∀ shared, Living self shared →
      sparing.Robust self (fun _ => Living self) (.done ()) shared :=
    fun shared living => .done lasts_living.stable living
  unfold PluginCleaner.settle
  refine Discipline.Robust.bind (parsePluginMarker_shared living isMarker) ?_
  rintro record shared ⟨living, found⟩
  cases record with
  | none => exact rest shared living
  | some record =>
      obtain ⟨ref, owner, condemned⟩ := found record rfl
      dsimp only
      refine Discipline.Robust.bind (sweep_shared condemned) ?_
      rintro swept shared ⟨living, condemned⟩
      cases swept with
      | false => exact rest shared living
      | true =>
          refine Discipline.Robust.call condemned_stable (condemned rfl) ?_
          rintro middle answer after settled condemned ⟨acted, -⟩
          obtain ⟨keeps, stays, -⟩ := keeps_removal settled acted
            fun other found => by
              rw [condemned.opened.only other found]
              exact ⟨owner, condemned.creator, Or.inl condemned.dead⟩
          refine ⟨keeps, rest after ?_⟩
          rw [Living, stays.alive]
          exact condemned.opened.alive

theorem markers_shared (entries : List Name) (checked : Nat)
    (living : Living self before) :
    sparing.Robust self (fun _ => Living self)
      (posixCleaner.markers checked entries) before := by
  induction entries generalizing checked before with
  | nil => exact .done lasts_living.stable living
  | cons entry entries ih =>
      rw [PluginCleaner.markers]
      split
      · have examines : posixCleaner.examines entry =
            .done (pluginMarkerName entry) := rfl
        rw [examines, Program.done_bind]
        split
        · rename_i isMarker
          refine Discipline.Robust.bind
            (posixSettle_shared living isMarker) ?_
          intro _ after living
          exact ih _ living
        · exact ih _ living
      · exact .done lasts_living.stable living

/-- `rymga_platform_cleanup_plugins` keeps to the discipline. -/
theorem cleanupPlugins_shared (living : Living self before) :
    sparing.Robust self (fun _ => Living self) cleanupPlugins before := by
  have rest : ∀ shared, Living self shared →
      sparing.Robust self (fun _ => Living self) (.done ()) shared :=
    fun shared living => .done lasts_living.stable living
  simp only [cleanupPlugins, Program.perform_bind]
  refine robust_asks lasts_living living rfl rfl ?_
  intro directoryOk shared living
  split
  · exact rest shared living
  refine robust_asks lasts_living living rfl rfl ?_
  intro opened shared living
  split
  · exact rest shared living
  refine robust_asks lasts_living living rfl rfl ?_
  intro duplicated shared living
  split
  · exact rest shared living
  refine robust_asks lasts_living living rfl rfl ?_
  intro entries shared living
  cases entries with
  | none => exact rest shared living
  | some entries => exact markers_shared entries 0 living

/-- Nothing that is held has the name or the number of this marker. -/
theorem Mine.allows (settled : before.Settled) (mine : Mine self name before)
    (found : before.world.disk.entry (.top name) = some ref) :
    (before.world.disk.files ref).creator = some self ∧
      before.world.Spared self name ref.inode := by
  refine ⟨mine.own ref found, fun plugin member =>
    ⟨mine.spared plugin member, ?_⟩⟩
  obtain ⟨named, ⟨anchor, linked, -, inode, -⟩, -⟩ :=
    settled.held self mine.alive plugin member
  rw [← inode]
  intro same
  have isMarker := settled.tended.drawn name mine.drawn
  have equal := settled.tended.distinct plugin.anchor name anchor ref linked
    found same
  have one := settled.tended.hidden plugin.anchor anchor linked
    (hiddenName_of_partialName named)
  have two := settled.tended.hidden name ref found
    (hiddenName_of_marker isMarker)
  rw [equal, two] at one
  cases one
  rw [not_partial_of_marker isMarker] at named
  cases named

theorem lasts_mine : Lasts self (Mine self name) where
  stable := mine_stable
  rests first second settled rests mine := by
    refine mine.stays settled rests fun ref found => ?_
    rw [rests.entries name id] at found
    exact found

theorem lasts_owned : Lasts self (Owned self name ref) where
  stable := owned_stable
  rests _ _ settled rests owned := owned.stays settled rests id

/-- A marker of the process goes. -/
theorem unlinkMarker_shared {β : Type} {post : β → Shared → Prop}
    {assertion : Shared → Prop}
    {next : Bool → Os β} (lasts : Lasts self assertion)
    (mine : ∀ shared, assertion shared → Mine self name shared)
    (holds : assertion before)
    (rest : ∀ middle answer after, middle.Settled → assertion middle →
      Shared.Stays self (· = name) (fun _ => False) middle after →
      Mine self name after → sparing.Robust self post (next answer) after) :
    sparing.Robust self post (.call (.unlink (.top name)) next) before := by
  refine Discipline.Robust.call lasts.stable holds ?_
  rintro middle answer after settled here ⟨acted, -⟩
  have own := mine middle here
  obtain ⟨keeps, stays, shrinks⟩ := keeps_removal settled acted
    fun other found => by
      obtain ⟨creator, spared⟩ := own.allows settled found
      exact ⟨self, creator, Or.inr ⟨rfl, spared⟩⟩
  exact ⟨keeps, rest middle answer after settled here stays
    (own.stays settled stays shrinks)⟩

/-- Whatever else is held, its marker has a hidden name. -/
theorem marker_hidden (settled : before.Settled)
    (living : before.world.alive self = true) {plugin : Plugin}
    (member : plugin ∈ (before.world.standing self).plugins) :
    hiddenName plugin.marker = true :=
  hiddenName_of_marker (settled.tended.drawn _
    (settled.held self living plugin member).drawn)

/-- `rymga_platform_release_plugin` keeps to the discipline. -/
theorem releasePlugin_shared {plugin : Plugin}
    (owned : Owned self plugin.anchor ref before)
    (inode : ref.inode = plugin.fileId)
    (isVisible : hiddenName plugin.destination = false)
    (mine : Mine self plugin.marker before) :
    sparing.Robust self (fun _ => Living self) (releasePlugin plugin)
      before := by
  have known : Lasts self fun shared =>
      Owned self plugin.anchor ref shared ∧ Mine self plugin.marker shared :=
    lasts_owned.and lasts_mine
  have last : ∀ shared, Mine self plugin.marker shared →
      sparing.Robust self (fun _ => Living self)
        (if plugin.marker ≠ [] then do
          let _ ← sys (.unlink (.top plugin.marker))
          pure ()
        else pure ()) shared := by
    intro shared mine
    split
    · refine unlinkMarker_shared lasts_mine (fun _ => id) mine ?_
      intro _ answer after _ _ _ mine
      exact .done lasts_living.stable mine.alive
    · exact .done lasts_living.stable mine.alive
  have second : ∀ shared, Owned self plugin.anchor ref shared ∧
      Mine self plugin.marker shared →
        sparing.Robust self (fun _ => Mine self plugin.marker)
          (removeSame Mode.regular (plugin.volumeId, plugin.fileId)
            plugin.anchor) shared := by
    rintro shared ⟨owned, mine⟩
    refine removeSame_shared (fun _ => id) known
      (fun _ both => both.1.alive) ?_ ?_ mine_stable (fun _ both => both.2)
      ⟨owned, mine⟩
    · rintro state settled ⟨owned, -⟩ other found -
      rw [owned.linked] at found
      cases found
      exact ⟨self, settled.born self owned.alive, owned.creator,
        Or.inr ⟨rfl, owned.spared⟩⟩
    · rintro state after settled stays shrinks ⟨owned, mine⟩
      refine mine.stays settled stays fun other found => ?_
      by_cases same : plugin.marker = plugin.anchor
      · rw [same] at found ⊢
        exact shrinks other found
      · rw [stays.entries _ same] at found
        exact found
  have first : sparing.Robust self (fun _ shared =>
      Owned self plugin.anchor ref shared ∧ Mine self plugin.marker shared)
        (removeSame Mode.regular (plugin.volumeId, plugin.fileId)
          plugin.destination) before := by
    refine removeSame_shared (fun _ => id) known
      (fun _ both => both.1.alive) ?_ ?_ known.stable (fun _ => id)
      ⟨owned, mine⟩
    · rintro state settled ⟨owned, -⟩ other found same
      have equal := settled.tended.distinct _ _ other ref found owned.linked
        (same.trans inode.symm)
      subst equal
      refine ⟨self, settled.born self owned.alive, owned.creator,
        Or.inr ⟨rfl, fun held member => ⟨?_, (owned.spared held member).2⟩⟩⟩
      intro clash
      have isHidden := marker_hidden settled owned.alive member
      rw [clash, isVisible] at isHidden
      cases isHidden
    · rintro state after settled stays - ⟨owned, mine⟩
      have apart : ∀ {other : Name}, hiddenName other = true →
          other ≠ plugin.destination := by
        rintro other isHidden rfl
        rw [isVisible] at isHidden
        cases isHidden
      have named := hiddenName_of_marker
        (settled.tended.drawn _ mine.drawn)
      refine ⟨owned.stays settled stays (apart owned.isHidden),
        mine.stays settled stays fun other found => ?_⟩
      rw [stays.entries _ (apart named)] at found
      exact found
  have rest : ∀ shared, Owned self plugin.anchor ref shared ∧
      Mine self plugin.marker shared →
        sparing.Robust self (fun _ => Living self)
          (if plugin.anchor ≠ [] then do
            let _ ← removeSame Mode.regular
              (plugin.volumeId, plugin.fileId) plugin.anchor
            if plugin.marker ≠ [] then do
              let _ ← sys (.unlink (.top plugin.marker))
              pure ()
            else pure ()
          else if plugin.marker ≠ [] then do
            let _ ← sys (.unlink (.top plugin.marker))
            pure ()
          else pure ()) shared := by
    intro shared both
    split
    · exact Discipline.Robust.bind (second shared both)
        fun _ after mine => last after mine
    · exact last shared both.2
  unfold releasePlugin
  dsimp only
  split
  · exact Discipline.Robust.bind first fun _ after both => rest after both
  · exact rest before ⟨owned, mine⟩

end RymgaLoader.Native
