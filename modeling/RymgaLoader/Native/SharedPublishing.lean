import RymgaLoader.Native.SharedPlugins

/-!
# Publishing among other processes

`rymga_platform_materialize_plugin` while other processes and foreign parties
work in the same directory.  The partial file and the marker are the
process's own from their creation to the end, and the partial file keeps its
inode number taken for as long as the marker records it.
-/

namespace RymgaLoader.Native

open Interleaving

variable {self : Process} {before after : Shared} {partialName : Name}
  {output : FileRef}

theorem writeChunk_shared (isPartial : pluginPartialName partialName = true)
    (rounds interruptions : Nat) (bytes : Bytes)
    (owned : Owned self partialName output before) :
    sparing.Robust self (fun _ => Owned self partialName output)
      (writeChunk output rounds interruptions bytes) before := by
  induction rounds generalizing interruptions bytes before with
  | zero => cases bytes <;> exact .done owned_stable owned
  | succ rounds ih =>
      cases bytes with
      | nil => exact .done owned_stable owned
      | cons byte bytes =>
          simp only [writeChunk, Program.perform_bind]
          refine Discipline.Robust.call owned_stable owned ?_
          rintro middle answer shared settled owned ⟨acted, -⟩
          obtain ⟨keeps, owned⟩ :=
            keeps_writeOutput settled isPartial owned acted
          refine ⟨keeps, ?_⟩
          cases answer with
          | interrupted => exact ih _ _ owned
          | failed => exact .done owned_stable owned
          | completed count =>
              cases count with
              | zero => exact .done owned_stable owned
              | succ written => exact ih _ _ owned

theorem copyRounds_shared (isPartial : pluginPartialName partialName = true)
    (rounds interruptions : Nat) (rest : Bytes)
    (owned : Owned self partialName output before) :
    sparing.Robust self (fun _ => Owned self partialName output)
      (copyRounds output rounds interruptions rest) before := by
  induction rounds generalizing interruptions rest before with
  | zero => exact .done owned_stable owned
  | succ rounds ih =>
      simp only [copyRounds, Program.perform_bind]
      refine robust_asks lasts_owned owned rfl rfl ?_
      intro answer shared owned
      cases answer with
      | interrupted => exact ih _ _ owned
      | failed => exact .done owned_stable owned
      | completed chunk =>
          cases chunk with
          | nil => exact .done owned_stable owned
          | cons byte bytes =>
              refine Discipline.Robust.bind
                (writeChunk_shared isPartial _ _ _ owned) ?_
              intro left shared owned
              cases left with
              | none => exact .done owned_stable owned
              | some interruptions => exact ih _ _ owned

theorem copySource_shared (isPartial : pluginPartialName partialName = true)
    (interruptions : Nat) (source : Bytes)
    (owned : Owned self partialName output before) :
    sparing.Robust self (fun _ => Owned self partialName output)
      (copySource interruptions output source) before := by
  have close : ∀ (synced : Bool) (shared : Shared),
      Owned self partialName output shared →
        sparing.Robust self (fun _ => Owned self partialName output)
          (.call .close fun closed => .done (synced && closed)) shared := by
    intro synced shared owned
    refine robust_asks lasts_owned owned rfl rfl ?_
    intro closed shared owned
    exact .done owned_stable owned
  have sync : ∀ shared : Shared, Owned self partialName output shared →
      sparing.Robust self (fun _ => Owned self partialName output)
        (.call (.fsync output) fun synced => .call .close fun closed =>
          .done (synced && closed)) shared := by
    intro shared owned
    refine robust_asks lasts_owned owned rfl rfl ?_
    intro synced shared owned
    exact close synced shared owned
  simp only [copySource, Program.perform_bind]
  refine robust_asks lasts_owned owned rfl rfl ?_
  intro restricted shared owned
  cases restricted with
  | false => exact close false shared owned
  | true =>
      refine Discipline.Robust.bind
        (copyRounds_shared isPartial _ _ _ owned) ?_
      intro copied shared owned
      cases copied with
      | false => exact close false shared owned
      | true => exact sync shared owned

/-- The partial file is complete, and its identity has been read. -/
structure Staged (process : Process) (partialName : Name) (output : FileRef)
    (pid volume : Nat) (shared : Shared) : Prop where
  owned : Owned process partialName output shared
  noted : Noted process output.inode shared
  pid : shared.world.pidOf process = pid
  volume : shared.world.disk.volume = volume

variable {pid volume : Nat}

theorem Staged.stays {changed : Name → Prop} {written : FileRef → Prop}
    (settled : before.Settled)
    (staged : Staged self partialName output pid volume before)
    (stays : Shared.Stays self changed written before after)
    (kept : ¬changed partialName) :
    Staged self partialName output pid volume after where
  owned := staged.owned.stays settled stays kept
  noted := staged.noted.stays stays
  pid := by
    rw [stays.pids, staged.pid]
  volume := by
    rw [stays.volume, staged.volume]

theorem lasts_staged :
    Lasts self (Staged self partialName output pid volume) where
  stable := by
    rintro first second settled settledAfter relied
      ⟨owned, noted, same, device⟩
    have spares := relied owned.alive
    refine ⟨owned_stable first second settled settledAfter relied owned,
      noted_stable first second settled settledAfter relied noted, ?_, ?_⟩
    · rw [spares.pids self (settled.born self owned.alive), same]
    · rw [spares.volume, device]
  rests _ _ settled rests staged := staged.stays settled rests id

theorem lasts_marking {name : Name} {ref : FileRef} {content : Bytes} :
    Lasts self (Marking self name ref content) where
  stable := marking_stable
  rests _ _ settled rests marking := marking.stays settled rests id id

variable {name filename : Name} {marker : FileRef}

/-- The marker as far as it is written, or written completely. -/
private def Written (self : Process) (partialName : Name) (output : FileRef)
    (pid volume : Nat) (name : Name) (marker : FileRef) (text : Bytes)
    (complete : Bool) (shared : Shared) : Prop :=
  Staged self partialName output pid volume shared ∧
    (∃ content, Marking self name marker content shared) ∧
    (complete = true → Marking self name marker text shared)

private theorem lasts_written {text : Bytes} {complete : Bool} :
    Lasts self (Written self partialName output pid volume name marker text
      complete) :=
  lasts_staged.and ((Lasts.some fun _ => lasts_marking).and
    lasts_marking.imp)

private theorem writeRounds_shared {created : Int64} {content bytes : Bytes}
    (epoch : 0 ≤ created) (rounds : Nat)
    (staged : Staged self partialName output pid volume before)
    (marking : Marking self name marker content before)
    (text : content ++ bytes =
      pluginText pid created volume output.inode filename) :
    sparing.Robust self (Written self partialName output pid volume name
        marker (pluginText pid created volume output.inode filename))
      (writeRounds marker rounds bytes) before := by
  have refuse : ∀ (content : Bytes) (shared : Shared),
      Staged self partialName output pid volume shared →
      Marking self name marker content shared →
      sparing.Robust self (Written self partialName output pid volume name
          marker (pluginText pid created volume output.inode filename))
        (.done false) shared := by
    intro content shared staged marking
    exact .done lasts_written.stable
      ⟨staged, ⟨content, marking⟩, by rintro ⟨⟩⟩
  induction rounds generalizing content bytes before with
  | zero =>
      cases bytes with
      | nil =>
          rw [List.append_nil] at text
          subst text
          exact .done lasts_written.stable
            ⟨staged, ⟨_, marking⟩, fun _ => marking⟩
      | cons byte bytes => exact refuse content before staged marking
  | succ rounds ih =>
      cases bytes with
      | nil =>
          rw [List.append_nil] at text
          subst text
          exact .done lasts_written.stable
            ⟨staged, ⟨_, marking⟩, fun _ => marking⟩
      | cons byte bytes =>
          simp only [writeRounds, Program.perform_bind]
          refine Discipline.Robust.call (lasts_staged.and lasts_marking).stable
            ⟨staged, marking⟩ ?_
          rintro middle answer shared settled ⟨staged, marking⟩ ⟨acted, -⟩
          have owned := staged.owned
          obtain ⟨-, -, narrowFile⟩ :=
            settled.tended.linked _ output owned.linked
          have narrowVolume := settled.tended.volume
          rw [staged.volume] at narrowVolume
          have fits : content ++ byte :: bytes <+: pluginText
              (middle.world.pidOf self) created volume output.inode
                filename := by
            rw [staged.pid]
            exact text ▸ List.prefix_rfl
          obtain ⟨keeps, stays, grown⟩ := keeps_markerText settled marking
            staged.noted acted epoch narrowVolume narrowFile fits
          have still := staged.stays settled stays id
          refine ⟨keeps, ?_⟩
          cases answer with
          | none => exact refuse _ shared still grown
          | some count =>
              cases count with
              | zero => exact refuse _ shared still grown
              | succ written =>
                  refine ih still grown ?_
                  rw [Option.getD_some, List.append_assoc,
                    List.take_append_drop, text]

/-- What `create_plugin_marker` leaves under its own name. -/
private def MarkedBy (self : Process) (partialName : Name) (output : FileRef)
    (pid volume : Nat) (filename name : Name) (ok : Bool) (shared : Shared) :
    Prop :=
  Staged self partialName output pid volume shared ∧ Mine self name shared ∧
    (ok = true → ∃ marker created, (0 : Int64) ≤ created ∧
      Marking self name marker
        (pluginText pid created volume output.inode filename) shared)

private theorem lasts_markedBy {ok : Bool} :
    Lasts self (MarkedBy self partialName output pid volume filename name
      ok) :=
  lasts_staged.and (lasts_mine.and (Lasts.imp (Lasts.some fun _ =>
    Lasts.some fun _ => (Lasts.const _).and lasts_marking)))

/-- The marker is written, or its name is given up. -/
private theorem writePluginMarker_shared (apart : name ≠ partialName)
    (staged : Staged self partialName output pid volume before)
    (marking : Marking self name marker [] before) :
    sparing.Robust self
      (MarkedBy self partialName output pid volume filename name)
      (writePluginMarker marker name filename volume output.inode)
      before := by
  have undo : ∀ (content : Bytes) (shared : Shared),
      Staged self partialName output pid volume shared →
      Marking self name marker content shared →
      sparing.Robust self
        (MarkedBy self partialName output pid volume filename name)
        (.call (.unlink (.top name)) fun _ => .done false) shared := by
    intro content shared staged marking
    refine unlinkMarker_shared (lasts_staged.and lasts_marking)
      (fun _ both => both.2.mine) ⟨staged, marking⟩ ?_
    rintro middle answer after settled ⟨staged, -⟩ stays mine
    exact .done lasts_markedBy.stable
      ⟨staged.stays settled stays apart.symm, mine, by rintro ⟨⟩⟩
  have both : ∀ content : Bytes, Lasts self fun shared =>
      Staged self partialName output pid volume shared ∧
        Marking self name marker content shared :=
    fun content => lasts_staged.and lasts_marking
  simp only [writePluginMarker, Program.perform_bind]
  refine robust_looks (both []) ⟨staged, marking⟩ rfl rfl ?_
  rintro middle answer shared - ⟨here, -⟩ acted ⟨staged, marking⟩
  obtain ⟨rfl, -⟩ := World.exec_getpid acted.1.2.1
  rw [here.pid]
  refine robust_looks (both []) ⟨staged, marking⟩ rfl rfl ?_
  rintro middle created shared - - acted ⟨staged, marking⟩
  obtain ⟨epoch, -⟩ := World.exec_time acted.1.2.1
  have wrote : sparing.Robust self (Written self partialName output pid
      volume name marker (pluginText pid created volume output.inode
        filename)) (writeFitting marker (pluginText pid created volume
          output.inode filename)) shared := by
    unfold writeFitting
    split
    · exact writeRounds_shared epoch _ staged marking (List.nil_append _)
    · exact .done lasts_written.stable
        ⟨staged, ⟨[], marking⟩, by rintro ⟨⟩⟩
  refine Discipline.Robust.bind wrote ?_
  rintro written shared ⟨staged, ⟨content, marking⟩, complete⟩
  cases written with
  | false =>
      refine robust_asks (both content) ⟨staged, marking⟩ rfl rfl ?_
      rintro closed shared ⟨staged, marking⟩
      exact undo content shared staged marking
  | true =>
      refine robust_asks (both _) ⟨staged, complete rfl⟩ rfl rfl ?_
      intro synced shared known
      refine robust_asks (both _) known rfl rfl ?_
      rintro closed shared ⟨staged, marking⟩
      split
      · exact .done lasts_markedBy.stable ⟨staged, marking.mine,
          fun _ => ⟨marker, created, epoch, marking⟩⟩
      · exact undo _ shared staged marking

/-- A hidden name that no loader gives to anything. -/
structure Nowhere (name : Name) : Prop where
  isHidden : hiddenName name = true
  notMarker : pluginMarkerName name = false
  notPartial : pluginPartialName name = false

theorem Nowhere.absent (nowhere : Nowhere name) (settled : before.Settled) :
    before.world.disk.entry (.top name) = none := by
  cases found : before.world.disk.entry (.top name) with
  | none => rfl
  | some ref =>
      have origin := settled.tended.hidden name ref found nowhere.isHidden
      obtain ⟨kind, -⟩ :=
        (settled.tended.origin name ref origin).2 nowhere.isHidden
      rcases kind with drawn | isPartial
      · have isMarker := settled.tended.drawn name drawn
        rw [nowhere.notMarker] at isMarker
        cases isMarker
      · rw [nowhere.notPartial] at isPartial
        cases isPartial

/-- A marker's path that does not fit is cut off within its random part. -/
theorem nowhere_of_fitted {pluginDirectory random : Bytes}
    (room : (slashed pluginDirectory partialStem).length + 6 < pathMax)
    (count : random.length = 16)
    (long : pathMax ≤ (slashed pluginDirectory
      (markerNameOf random)).length) :
    Nowhere (fitted pluginDirectory (markerNameOf random)) := by
  have stem : markerStem.length = 15 := rfl
  have partials : partialStem.length = 14 := rfl
  have ending : markerEnding.length = 6 := rfl
  have hex := Hex.length_encode random
  have full : (markerNameOf random).length = 53 := by
    simp only [markerNameOf, List.length_append]
    omega
  simp only [slashed, List.length_append, List.length_cons, partials, full,
    pathMax] at room long
  have cut : fitted pluginDirectory (markerNameOf random) =
      (markerNameOf random).take (4094 - pluginDirectory.length) := by
    have shape : slashed pluginDirectory (markerNameOf random) =
        (pluginDirectory ++ [0x2F]) ++ markerNameOf random := by
      simp [slashed]
    rw [fitted, shape, List.take_append, List.drop_append]
    have whole : ((pluginDirectory ++ [0x2F]).take (pathMax - 1)).drop
        (pluginDirectory.length + 1) = [] := by
      rw [List.drop_eq_nil_iff]
      simp only [List.length_take, List.length_append, List.length_cons,
        List.length_nil]
      omega
    rw [whole, List.nil_append]
    simp only [List.length_take, List.length_append, List.length_cons,
      List.length_nil, pathMax]
    rw [show min (4096 - 1) (pluginDirectory.length + (0 + 1)) =
      pluginDirectory.length + 1 by omega, Nat.sub_self, List.drop_zero]
    congr 1
    omega
  have front : ∀ count ≤ 15, 15 ≤ 4094 - pluginDirectory.length →
      ((markerNameOf random).take (4094 - pluginDirectory.length)).take
        count = markerStem.take count := by
    intro count small enough
    rw [List.take_take, min_eq_left (by omega), markerNameOf,
      List.append_assoc, List.take_append_of_le_length (by omega)]
  have enough : 15 ≤ 4094 - pluginDirectory.length := by omega
  rw [cut]
  refine ⟨?_, ?_, ?_⟩
  · simp only [hiddenName, front 7 (by omega) enough]
    rfl
  · rw [← Bool.not_eq_true]
    intro isMarker
    simp only [pluginMarkerName, Bool.decide_and, Bool.and_eq_true,
      decide_eq_true_eq] at isMarker
    have length := isMarker.1
    rw [List.length_take, full] at length
    omega
  · rw [← Bool.not_eq_true]
    intro isPartial
    simp only [pluginPartialName, templateName, Bool.decide_and,
      Bool.and_eq_true, decide_eq_true_eq, partials,
      front 14 (by omega) enough] at isPartial
    exact absurd isPartial.1 (by decide)

/-- The name left in the path of the marker can be given up. -/
private def Undoable (self : Process) (path : Name) (shared : Shared) :
    Prop :=
  path = [] ∨ Nowhere path ∨ Mine self path shared

private theorem lasts_undoable {path : Name} :
    Lasts self (Undoable self path) where
  stable := by
    rintro first second settled settledAfter relied
      (empty | nowhere | mine)
    · exact Or.inl empty
    · exact Or.inr (Or.inl nowhere)
    · exact Or.inr (Or.inr (mine_stable first second settled settledAfter
        relied mine))
  rests := by
    rintro first second settled rests (empty | nowhere | mine)
    · exact Or.inl empty
    · exact Or.inr (Or.inl nowhere)
    · exact Or.inr (Or.inr (lasts_mine.rests first second settled rests
        mine))

/-- What the attempts leave. -/
private def Attempted (self : Process) (partialName : Name)
    (output : FileRef) (pid volume : Nat) (filename : Name)
    (result : Bool × Name) (shared : Shared) : Prop :=
  Staged self partialName output pid volume shared ∧
    Undoable self result.2 shared ∧
    (result.1 = true → ∃ marker created, (0 : Int64) ≤ created ∧
      Marking self result.2 marker
        (pluginText pid created volume output.inode filename) shared)

private theorem lasts_attempted {result : Bool × Name} :
    Lasts self (Attempted self partialName output pid volume filename
      result) :=
  lasts_staged.and (lasts_undoable.and (Lasts.imp (Lasts.some fun _ =>
    Lasts.some fun _ => (Lasts.const _).and lasts_marking)))

private theorem markerAttempts_shared {pluginDirectory path : Bytes}
    (attempts : Nat) (isPartial : pluginPartialName partialName = true)
    (room : (slashed pluginDirectory partialStem).length + 6 < pathMax)
    (staged : Staged self partialName output pid volume before)
    (undoable : Undoable self path before) :
    sparing.Robust self
      (Attempted self partialName output pid volume filename)
      (markerAttempts pluginDirectory filename volume output.inode attempts
        path) before := by
  have refuse : ∀ (path : Name) (shared : Shared),
      Staged self partialName output pid volume shared →
      Undoable self path shared →
      sparing.Robust self
        (Attempted self partialName output pid volume filename)
        (.done (false, path)) shared := by
    intro path shared staged undoable
    exact .done lasts_attempted.stable
      ⟨staged, undoable, by rintro ⟨⟩⟩
  induction attempts generalizing path before with
  | zero => exact refuse path before staged undoable
  | succ attempts ih =>
      simp only [markerAttempts, Program.perform_bind]
      refine robust_looks lasts_staged staged rfl rfl ?_
      intro _ random shared _ _ acted staged
      have count := World.exec_random acted.1.2.1
      have isMarker := pluginMarkerName_markerNameOf count
      split
      · rename_i long
        exact refuse _ shared staged
          (Or.inr (Or.inl (nowhere_of_fitted room count long)))
      · rename_i short
        rw [fitted_eq (by omega)]
        refine Discipline.Robust.call lasts_staged.stable staged ?_
        rintro middle opened after settled staged ⟨acted, met⟩
        obtain ⟨keeps, stays, mine, marks⟩ :=
          keeps_newMarker settled isMarker acted met
        have apart : markerNameOf random ≠ partialName := by
          intro same
          rw [← same, not_partial_of_marker isMarker] at isPartial
          cases isPartial
        have still := staged.stays settled stays (Ne.symm apart)
        have undoable : Undoable self (markerNameOf random) after :=
          Or.inr (Or.inr mine)
        refine ⟨keeps, ?_⟩
        cases opened with
        | occupied => exact ih still undoable
        | failed => exact refuse _ after still undoable
        | opened marker =>
            refine Discipline.Robust.bind (writePluginMarker_shared apart
              still (marks marker rfl)) ?_
            rintro ok shared ⟨staged, mine, complete⟩
            exact .done lasts_attempted.stable
              ⟨staged, Or.inr (Or.inr mine), complete⟩

/-- The identity that is compared is the one noted, or no file's. -/
private def Compares (self : Process) (inode : Nat) (shared : Shared) :
    Prop :=
  Living self shared ∧ (inode = 0 ∨ Noted self inode shared)

private theorem lasts_compares {inode : Nat} :
    Lasts self (Compares self inode) where
  stable := by
    rintro first second settled settledAfter relied ⟨living, blank | noted⟩
    · exact ⟨lasts_living.stable first second settled settledAfter relied
        living, Or.inl blank⟩
    · exact ⟨lasts_living.stable first second settled settledAfter relied
        living, Or.inr (noted_stable first second settled settledAfter relied
          noted)⟩
  rests := by
    rintro first second settled rests ⟨living, blank | noted⟩
    · exact ⟨lasts_living.rests first second settled rests living,
        Or.inl blank⟩
    · exact ⟨lasts_living.rests first second settled rests living,
        Or.inr (noted.stays rests)⟩

private theorem Compares.stays {inode : Nat} {changed : Name → Prop}
    {written : FileRef → Prop} (compares : Compares self inode before)
    (stays : Shared.Stays self changed written before after) :
    Compares self inode after := by
  obtain ⟨living, numbers⟩ := compares
  refine ⟨?_, numbers.imp id fun noted => noted.stays stays⟩
  rw [Living, stays.alive]
  exact living

private theorem removeNoted_shared {identity : Nat × Nat}
    (isVisible : hiddenName filename = false)
    (compares : Compares self identity.2 before) :
    sparing.Robust self (fun _ => Living self)
      (removeSame Mode.ownRegular identity filename) before := by
  refine removeSame_shared regular_of_ownRegular lasts_compares
    (fun _ known => known.1) ?_ ?_ lasts_living.stable
    (fun _ known => known.1) compares
  · rintro shared settled ⟨living, blank | noted⟩ ref found same
    · obtain ⟨-, nonzero, -⟩ := settled.tended.linked filename ref found
      rw [same] at nonzero
      exact absurd blank nonzero
    · have vouched : shared.Vouched self identity.2 :=
        .noted noted.alive noted.noted
      refine ⟨self, settled.born self living,
        settled.vouched self _ vouched filename ref found same,
        Or.inr ⟨rfl, fun plugin member => ⟨?_, ?_⟩⟩⟩
      · rintro clash
        have isHidden := marker_hidden settled living member
        rw [clash, isVisible] at isHidden
        cases isHidden
      · rw [same]
        exact noted.spared plugin member
  · rintro first second settled stays - ⟨living, -⟩
    rw [Living, stays.alive]
    exact living

/-- What a publication returns to its process. -/
def Collected (self : Process) (returned : Option Plugin) (shared : Shared) :
    Prop :=
  Living self shared ∧ ∀ plugin, returned = some plugin →
    shared.Holds self plugin ∧
    ∀ held ∈ (shared.world.standing self).plugins,
      held.marker ≠ plugin.marker ∧ held.fileId ≠ plugin.fileId

theorem collected_none (living : Living self before) :
    Collected self none before :=
  ⟨living, by rintro plugin ⟨⟩⟩

/-- A plugin with an anchor and a marker of the process. -/
private structure Publishes (process : Process) (plugin : Plugin)
    (output marker : FileRef) (pid : Nat) (created : Int64)
    (shared : Shared) : Prop where
  staged : Staged process plugin.anchor output pid plugin.volumeId shared
  marking : Marking process plugin.marker marker
    (pluginText pid created plugin.volumeId output.inode plugin.destination)
    shared
  same : output.inode = plugin.fileId
  epoch : 0 ≤ created
  named : pluginPartialName plugin.anchor = true
  destination : MarkableName plugin.destination ∧
    hiddenName plugin.destination = false

private theorem publishes_stable {plugin : Plugin} {created : Int64} :
    sparing.Stable self
      (Publishes self plugin output marker pid created) := by
  rintro first second settled settledAfter relied
    ⟨staged, marking, same, epoch, named, destination⟩
  exact ⟨lasts_staged.stable first second settled settledAfter relied staged,
    marking_stable first second settled settledAfter relied marking, same,
    epoch, named, destination⟩

private theorem Publishes.collected {plugin : Plugin} {created : Int64}
    (publishes : Publishes self plugin output marker pid created before) :
    Collected self (some plugin) before := by
  obtain ⟨staged, marking, same, epoch, named, destination⟩ := publishes
  refine ⟨staged.owned.alive, ?_⟩
  rintro _ ⟨⟩
  refine ⟨⟨named, ⟨output, staged.owned.linked, staged.owned.creator, same,
    staged.volume.symm⟩, marking.drawn, ⟨marker, created,
      marking.owned.linked, marking.owned.creator, epoch, ?_⟩, destination⟩,
    fun held member => ⟨(marking.owned.spared held member).1, ?_⟩⟩
  · rw [marking.content, staged.pid, same]
  · rw [← same]
    exact (staged.owned.spared held member).2

private theorem robust_collected {returned : Option Plugin}
    (holds : ∀ after : Shared, after.Settled →
      sparing.Drift self before after → Collected self returned after) :
    sparing.Robust self (Collected self) (.done returned) before :=
  fun after settled drift => holds after settled drift

theorem robust_none (living : Living self before) :
    sparing.Robust self (Collected self) (.done none) before :=
  robust_collected fun _ _ drift =>
    collected_none (lasts_living.stable.drift drift living)

/-- The failure block keeps to the discipline. -/
private theorem undoPlugin_shared {path : Name} {identity : Nat × Nat}
    (isVisible : hiddenName filename = false)
    (isPartial : pluginPartialName partialName = true)
    (owned : Owned self partialName output before)
    (undoable : Undoable self path before)
    (compares : Compares self identity.2 before) :
    sparing.Robust self (Collected self)
      (undoPlugin filename partialName path identity) before := by
  have last : ∀ shared, Compares self identity.2 shared →
      sparing.Robust self (Collected self)
        (removeSame Mode.ownRegular identity filename >>= fun _ =>
          .done none) shared := by
    intro shared compares
    exact Discipline.Robust.bind (removeNoted_shared isVisible compares)
      fun _ after living => robust_none living
  have known := (lasts_owned.and
    (lasts_undoable.and lasts_compares) : Lasts self fun shared =>
      Owned self partialName output shared ∧ Undoable self path shared ∧
        Compares self identity.2 shared)
  simp only [undoPlugin, Program.perform_bind]
  refine Discipline.Robust.call known.stable
    ⟨owned, undoable, compares⟩ ?_
  rintro middle answer after settled ⟨owned, undoable, compares⟩ ⟨acted, -⟩
  obtain ⟨keeps, stays, shrinks⟩ := keeps_removal settled acted
    fun ref found => by
      rw [owned.linked] at found
      cases found
      exact ⟨self, owned.creator, Or.inr ⟨rfl, owned.spared⟩⟩
  refine ⟨keeps, ?_⟩
  have still := compares.stays stays
  split
  · rename_i nonempty
    have both : Lasts self fun shared =>
        (Nowhere path ∨ Mine self path shared) ∧
          Compares self identity.2 shared := by
      refine Lasts.and ⟨?_, ?_⟩ lasts_compares
      · rintro first second settled settledAfter relied (nowhere | mine)
        · exact Or.inl nowhere
        · exact Or.inr (mine_stable first second settled settledAfter relied
            mine)
      · rintro first second settled rests (nowhere | mine)
        · exact Or.inl nowhere
        · exact Or.inr (lasts_mine.rests first second settled rests mine)
    have mine : Nowhere path ∨ Mine self path after := by
      rcases undoable with empty | nowhere | mine
      · exact absurd empty nonempty
      · exact Or.inl nowhere
      · refine Or.inr (mine.stays settled stays fun other found => ?_)
        rw [stays.entries] at found
        · exact found
        · intro clash
          rw [← clash, not_partial_of_marker
            (settled.tended.drawn path mine.drawn)] at isPartial
          cases isPartial
    refine Discipline.Robust.call both.stable ⟨mine, still⟩ ?_
    rintro first dropped second settled ⟨mine, compares⟩ ⟨acted, -⟩
    obtain ⟨keeps, stays, -⟩ := keeps_removal settled acted
      fun ref found => by
        rcases mine with nowhere | mine
        · rw [nowhere.absent settled] at found
          cases found
        · obtain ⟨creator, spared⟩ := mine.allows settled found
          exact ⟨self, creator, Or.inr ⟨rfl, spared⟩⟩
    exact ⟨keeps, last second (compares.stays stays)⟩
  · exact last after still

/-- The identity that is read of the partial file is its own. -/
private theorem identity_of_owned
    (owned : Owned self partialName output before) {info : Stat}
    (told : before.world.disk.stat (.top partialName) = some info) :
    info.volume = before.world.disk.volume ∧ info.inode = output.inode := by
  have same : before.world.disk.stat (.top partialName) =
      some (before.world.disk.statFile output) := by
    simp [Disk.stat, Disk.lookup, Disk.resolve, owned.linked]
  rw [same] at told
  cases told
  exact ⟨rfl, rfl⟩

/-- The marker and the link. -/
private theorem announce_shared {pluginDirectory : Bytes}
    (room : (slashed pluginDirectory partialStem).length + 6 < pathMax)
    (isPartial : pluginPartialName partialName = true)
    (destination : MarkableName filename ∧ hiddenName filename = false)
    (staged : Staged self partialName output pid volume before) :
    sparing.Robust self (Collected self) (do
      let (marked, marker) ←
        createPluginMarker pluginDirectory filename volume output.inode
      let linked ← if marked then sys (.link partialName filename)
        else pure false
      if linked then
        return some ⟨filename, marker, partialName, volume, output.inode⟩
      else undoPlugin filename partialName marker (volume, output.inode))
      before := by
  have undo : ∀ (path : Name) (shared : Shared),
      Staged self partialName output pid volume shared →
      Undoable self path shared →
      sparing.Robust self (Collected self)
        (undoPlugin filename partialName path (volume, output.inode))
        shared := by
    intro path shared staged undoable
    exact undoPlugin_shared destination.2 isPartial staged.owned undoable
      ⟨staged.owned.alive, Or.inr staged.noted⟩
  refine Discipline.Robust.bind (markerAttempts_shared 128 isPartial room
    staged (Or.inl rfl)) ?_
  rintro ⟨marked, path⟩ shared ⟨staged, undoable, complete⟩
  cases marked with
  | false => exact undo path shared staged undoable
  | true =>
      obtain ⟨marker, created, epoch, marking⟩ := complete rfl
      have known : Lasts self fun shared =>
          Staged self partialName output pid volume shared ∧
            Marking self path marker (pluginText pid created volume
              output.inode filename) shared :=
        lasts_staged.and lasts_marking
      refine Discipline.Robust.call known.stable ⟨staged, marking⟩ ?_
      rintro middle linked after settled ⟨staged, marking⟩ ⟨acted, met⟩
      obtain ⟨keeps, stays⟩ := keeps_link settled isPartial staged.owned
        destination.2 acted met
      have apart : ∀ {other : Name}, hiddenName other = true →
          other ≠ filename := by
        rintro other isHidden rfl
        rw [destination.2] at isHidden
        cases isHidden
      have stillStaged := staged.stays settled stays
        (apart (hiddenName_of_partialName isPartial))
      have stillMarking := marking.stays settled stays
        (apart marking.owned.isHidden) id
      refine ⟨keeps, ?_⟩
      cases linked with
      | false =>
          exact undo path after stillStaged
            (Or.inr (Or.inr stillMarking.mine))
      | true =>
          refine robust_collected fun final _ drift => ?_
          have publishes : Publishes self ⟨filename, path, partialName,
              volume, output.inode⟩ output marker pid created after :=
            ⟨stillStaged, stillMarking, rfl, epoch, isPartial, destination⟩
          exact (publishes_stable.drift drift publishes).collected

theorem publishPlugin_shared {pluginDirectory : Bytes}
    (room : (slashed pluginDirectory partialStem).length + 6 < pathMax)
    (isPartial : pluginPartialName partialName = true)
    (destination : MarkableName filename ∧ hiddenName filename = false)
    (owned : Owned self partialName output before) :
    sparing.Robust self (Collected self)
      (publishPlugin pluginDirectory filename partialName) before := by
  have refuse : ∀ shared, Owned self partialName output shared →
      sparing.Robust self (Collected self)
        (undoPlugin filename partialName [] (0, 0)) shared := by
    intro shared owned
    exact undoPlugin_shared destination.2 isPartial owned (Or.inl rfl)
      ⟨owned.alive, Or.inl rfl⟩
  simp only [publishPlugin, fileIdentityAt, fileIdentity,
    Program.perform_bind, Program.call_bind]
  refine robust_looks lasts_owned owned rfl rfl ?_
  intro middle answer shared settled here acted owned
  cases answer with
  | none => exact refuse shared owned
  | some info =>
      have told := (exec_examines acted.1.2.1).1
      obtain ⟨device, inode⟩ := identity_of_owned here told
      dsimp only
      split
      · simp only [Program.pure_eq_done, Program.done_bind]
        rw [inode, device]
        have onVolume : sparing.Stable self fun shared : Shared =>
            Owned self partialName output shared ∧
              shared.world.disk.volume = middle.world.disk.volume := by
          rintro first second settled settledAfter relied ⟨owned, same⟩
          refine ⟨owned_stable first second settled settledAfter relied
            owned, ?_⟩
          rw [(relied owned.alive).volume, same]
        have same : shared.world.disk.volume = middle.world.disk.volume := by
          rw [World.exec_disk rfl acted.1.2.1]
        refine Discipline.Robust.call onVolume ⟨owned, same⟩ ?_
        rintro first noted second settled ⟨owned, same⟩ ⟨acted, -⟩
        obtain ⟨keeps, owned, notes⟩ := keeps_note settled owned acted
        refine ⟨keeps, announce_shared room isPartial destination
          ⟨owned, notes, rfl, ?_⟩⟩
        rw [World.exec_disk rfl acted.1.2.1, same]
      · simp only [Program.pure_eq_done, Program.done_bind]
        exact refuse shared owned

theorem copyPlugin_shared {pluginDirectory source : Bytes}
    (interruptions : Nat)
    (destination : MarkableName filename ∧ hiddenName filename = false)
    (living : Living self before) :
    sparing.Robust self (Collected self)
      (copyPlugin interruptions pluginDirectory filename source) before := by
  unfold copyPlugin
  split
  · exact robust_none living
  rename_i short
  rw [not_or, not_le, not_le] at short
  simp only [Program.perform_bind]
  refine robust_asks lasts_living living rfl rfl ?_
  intro opened shared living
  refine robust_asks lasts_living living rfl rfl ?_
  intro input shared living
  refine Discipline.Robust.call lasts_living.stable living ?_
  rintro middle answer after settled living ⟨acted, met⟩
  obtain ⟨keeps, living, makes⟩ := keeps_mkstemp settled acted met
  refine ⟨keeps, ?_⟩
  cases answer with
  | none => exact robust_none living
  | some made =>
      obtain ⟨partialName, output⟩ := made
      obtain ⟨isPartial, owned⟩ := makes partialName output rfl
      dsimp only
      split
      · refine robust_asks lasts_owned owned rfl rfl ?_
        intro closed shared owned
        refine Discipline.Robust.call owned_stable owned ?_
        rintro first removed second settled owned ⟨acted, -⟩
        obtain ⟨keeps, stays, -⟩ := keeps_removal settled acted
          fun ref found => by
            rw [owned.linked] at found
            cases found
            exact ⟨self, owned.creator, Or.inr ⟨rfl, owned.spared⟩⟩
        refine ⟨keeps, robust_none ?_⟩
        rw [Living, stays.alive]
        exact owned.alive
      · refine Discipline.Robust.bind (copySource_shared isPartial
          interruptions source owned) ?_
        intro copied shared owned
        split
        · exact publishPlugin_shared short.2 isPartial destination owned
        · exact undoPlugin_shared destination.2 isPartial owned (Or.inl rfl)
            ⟨owned.alive, Or.inl rfl⟩

/-- `rymga_platform_materialize_plugin` keeps to the discipline and returns a
plugin that is published. -/
theorem materializePlugin_shared {pluginDirectory source : Bytes}
    (interruptions : Nat)
    (destination : MarkableName filename ∧ hiddenName filename = false)
    (living : Living self before) :
    sparing.Robust self (Collected self)
      (materializePlugin interruptions pluginDirectory filename source)
      before := by
  simp only [materializePlugin, Program.perform_bind]
  refine robust_asks lasts_living living rfl rfl ?_
  intro directoryOk shared living
  split
  · exact robust_none living
  · refine Discipline.Robust.bind (cleanupPlugins_shared living) ?_
    intro _ after living
    exact copyPlugin_shared interruptions destination living

end RymgaLoader.Native
