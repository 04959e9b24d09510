import RymgaLoader.Native.PluginSharing

/-!
# Steps in a plugin directory

Each call of a process and each deed of a foreign party is one of a few
changes: a new file under a free name, another link, an entry that goes, a
file that is written.  Every such change turns a settled directory into a
settled one.
-/

namespace RymgaLoader.Native

open Interleaving

/-- Calls after which a process goes by another number. -/
def Call.records : Call → Bool
  | .openRead _ | .note _ => true
  | _ => false

namespace World

variable {world after : World} {self : Process}

private theorem effect_records {call : Call} {answer : Answer call}
    (plain : call.records = false)
    (done : world.effect self call answer = some after) :
    (after.standing self).reading = (world.standing self).reading ∧
      (after.standing self).noted = (world.standing self).noted := by
  unfold effect at done
  repeat' split at done
  all_goals first
    | (cases done; exact ⟨rfl, rfl⟩)
    | (cases plain; done)
    | (cases done
       simp [withStanding])
    | cases done
    | skip
  · obtain ⟨id, -, -, rfl⟩ := removeEmptyDirectory_eq_some_iff.mp done
    exact ⟨rfl, rfl⟩
  · obtain ⟨between, removed, rfl⟩ := Option.map_eq_some_iff.mp done
    obtain ⟨id, -, -, rfl⟩ := removeEmptyDirectory_eq_some_iff.mp removed
    simp [withStanding, withDisk]

theorem exec_records {call : Call} {answer : Answer call}
    (plain : call.records = false)
    (done : world.exec self call answer = some after) :
    (after.standing self).reading = (world.standing self).reading ∧
      (after.standing self).noted = (world.standing self).noted := by
  have kept := effect_records plain done
  simpa [withStanding] using kept

end World

variable {self : Process} {actor : Option Process} {before after : Shared}

/-- A call moves nothing but the directory, and asks for marker names only. -/
theorem unmoved_of_acted {call : Call} {answer : Answer call}
    (plain : call.records = false)
    (names : ∀ name ∈ call.draws, pluginMarkerName name = true)
    (acted : pluginDirectory.act self call before answer after) :
    Shared.Unmoved (some self) before after := by
  obtain ⟨⟨-, done, -⟩, drawn⟩ := acted
  obtain ⟨alive, pids, born, others⟩ := World.exec_frame done
  obtain ⟨-, plugins, -, -⟩ := World.exec_standing done
  obtain ⟨reading, noted⟩ := World.exec_records plain done
  have every : ∀ {α : Type} (field : Standing → α),
      field (after.world.standing self) =
        field (before.world.standing self) →
      ∀ process, field (after.world.standing process) =
        field (before.world.standing process) := by
    intro α field own process
    by_cases same : process = self
    · subst same
      exact own
    · rw [others process same]
  exact ⟨alive, pids, born, every _ plugins, every _ reading, every _ noted,
    fun process different => others process fun same =>
      different (by rw [same]), call.draws, drawn, names⟩

theorem Shared.Settled.unexamined (settled : before.Settled) {name : Name}
    {inode : Option Nat}
    (admitted : before.world.admits (some (name, inode)) = true)
    (process : Process) (living : before.world.alive process = true) :
    (before.world.standing process).checked ≠ some name := by
  intro checked
  simp only [World.admits, Bool.and_eq_true, Bool.not_eq_true'] at admitted
  have examined : before.world.examines name = true := by
    rw [World.examines, List.any_eq_true]
    exact ⟨process, List.mem_range.mpr (settled.born process living), by
      simp [living, checked]⟩
  rw [examined] at admitted
  cases admitted.1

theorem Shared.Settled.unvouched (settled : before.Settled) {name : Name}
    {inode : Nat}
    (admitted : before.world.admits (some (name, some inode)) = true) :
    inode < 2 ^ 64 ∧ ∀ owner, ¬before.Vouched owner inode := by
  simp only [World.admits, Option.all_some, Bool.and_eq_true,
    Bool.not_eq_true', decide_eq_true_eq] at admitted
  obtain ⟨-, ⟨small, unmarked⟩, unremembered⟩ := admitted
  refine ⟨small, ?_⟩
  intro owner vouched
  have remembered : ∀ process, before.world.alive process = true →
      ((before.world.standing process).noted = some inode ∨
        (before.world.standing process).reading.any (fun ref =>
          recordedFile (before.world.disk.files ref).content =
            some inode) = true) → False := by
    intro process living known
    have shown : before.world.remembers inode = true := by
      rw [World.remembers, List.any_eq_true]
      refine ⟨process, List.mem_range.mpr (settled.born process living), ?_⟩
      simpa [living] using known
    rw [shown] at unremembered
    cases unremembered
  cases vouched with
  | @marker name ref owner inode member linked creator recorded =>
      have shown : before.world.marks inode = true := by
        rw [World.marks, List.any_eq_true]
        refine ⟨⟨name, .file ref⟩, AList.mem_lookup_iff.mp
          (Disk.entry_top_iff.mp linked), ?_⟩
        simp [settled.tended.drawn name member, recorded]
      rw [shown] at unmarked
      cases unmarked
  | @reading process ref owner inode living opened creator recorded =>
      refine remembered process living (Or.inr ?_)
      simp [opened, recorded]
  | noted living own => exact remembered _ living (Or.inl own)

theorem Shared.Turns.same (settled : before.Settled)
    (unmoved : Shared.Unmoved actor before after)
    (disk : after.world.disk = before.world.disk) :
    Shared.Turns actor before after where
  toUnmoved := unmoved
  volume := by rw [disk]
  files := by rw [disk]
  flat := by
    rw [disk]
    exact settled.tended.flat
  fixed := by
    rw [disk]
    exact fun _ _ => ⟨rfl, rfl⟩
  created := by
    rw [disk]
    exact fun _ _ => Or.inl
  entries := by
    rw [disk]
    exact fun _ _ => Or.inl
  stays := by
    rw [disk]
    exact fun _ _ _ => Or.inl
  written := by
    rw [disk]
    exact fun _ _ _ _ => Or.inl rfl

/-- A new file. -/
theorem Shared.Turns.plant (settled : before.Settled)
    (unmoved : Shared.Unmoved actor before after) {name : Name}
    {ref : FileRef} {file : File}
    (disk : after.world.disk = before.world.disk.plant name ref file)
    (fresh : before.world.disk.Fresh ref)
    (admitted : before.world.admits (some (name, some ref.inode)) = true)
    (undrawn : name ∉ before.drawn)
    (vacant : hiddenName name = true →
      before.world.disk.entry (.top name) = none)
    (blank : name ∈ after.drawn → file.content = [])
    (made : hiddenName name = true →
      (name ∈ after.drawn ∨ pluginPartialName name = true) ∧
      ∃ owner < before.world.born, file.creator = some owner) :
    Shared.Turns actor before after := by
  have entries : ∀ other, after.world.disk.entry (.top other) =
      if other = name then some ref
      else before.world.disk.entry (.top other) := by
    intro other
    have planted : (before.world.disk.plant name ref file).entry
        (.top other) = ((before.world.disk.setFile ref file).attach
          (.top name) ref).entry (.top other) := rfl
    rw [disk, planted, Disk.entry_attach]
    simp only [Slot.top.injEq]
    rfl
  have files : ∀ other, after.world.disk.files other =
      if other = ref then file else before.world.disk.files other := by
    intro other
    rw [disk]
    exact Function.update_apply _ _ _ _
  have origins : ∀ other, after.world.disk.origin other =
      if other = ref then some (.top name)
      else before.world.disk.origin other := by
    intro other
    rw [disk]
    exact Function.update_apply _ _ _ _
  have next : after.world.disk.nextFile =
      before.world.disk.nextFile + 1 := by
    rw [disk]
    rfl
  have older : ∀ other, other.index < before.world.disk.nextFile →
      other ≠ ref := by
    rintro other index rfl
    exact index.ne fresh.1
  have newer : ref.index < after.world.disk.nextFile := by
    rw [next, fresh.1]
    exact Nat.lt_succ_self _
  refine ⟨unmoved, ?_, ?_, ?_, ?_, ?_, ?_, ?_, ?_⟩
  · rw [disk]
    rfl
  · rw [next]
    exact Nat.le_succ _
  · rw [disk]
    exact settled.tended.flat
  · intro other index
    rw [origins, files, if_neg (older other index),
      if_neg (older other index)]
    exact ⟨rfl, rfl⟩
  · intro other candidate origin
    rw [origins] at origin
    split at origin
    · rename_i same
      cases origin
      rw [same, files, if_pos rfl]
      exact Or.inr ⟨fresh.1, newer, blank, made⟩
    · exact Or.inl origin
  · intro other candidate found
    rw [entries] at found
    split at found
    · rename_i same
      cases found
      rw [same]
      refine Or.inr ⟨undrawn, settled.unexamined admitted, Or.inr ?_⟩
      obtain ⟨small, unvouched⟩ := settled.unvouched admitted
      refine ⟨fresh, small, unvouched, newer, ?_⟩
      rw [origins, if_pos rfl]
    · exact Or.inl found
  · intro other candidate isHidden found
    refine Or.inl ?_
    rw [entries, if_neg, found]
    rintro rfl
    rw [vacant isHidden] at found
    cases found
  · intro other candidate member origin
    refine Or.inl ?_
    rw [files, if_neg]
    exact older candidate (settled.tended.origin other candidate origin).1

/-- Another link to a file that is no marker. -/
theorem Shared.Turns.attach (settled : before.Settled)
    (unmoved : Shared.Unmoved actor before after) {source target : Name}
    {ref : FileRef}
    (disk : after.world.disk =
      before.world.disk.attach (.top target) ref)
    (found : before.world.disk.entry (.top source) = some ref)
    (plain : ∀ other ∈ before.drawn,
      before.world.disk.origin ref ≠ some (.top other))
    (isVisible : hiddenName target = false)
    (admitted : before.world.admits (some (target, none)) = true) :
    Shared.Turns actor before after := by
  have entries : ∀ other, after.world.disk.entry (.top other) =
      if other = target then some ref
      else before.world.disk.entry (.top other) := by
    intro other
    rw [disk, Disk.entry_attach]
    simp
  refine ⟨unmoved, ?_, ?_, ?_, ?_, ?_, ?_, ?_, ?_⟩
  · rw [disk]
    rfl
  · rw [disk]
    exact Nat.le_refl _
  · rw [disk]
    exact settled.tended.flat
  · rw [disk]
    exact fun _ _ => ⟨rfl, rfl⟩
  · rw [disk]
    exact fun _ _ origin => Or.inl origin
  · intro other candidate linked
    rw [entries] at linked
    split at linked
    · rename_i same
      cases linked
      rw [same]
      refine Or.inr ⟨?_, settled.unexamined admitted,
        Or.inl ⟨isVisible, ⟨source, found⟩, plain⟩⟩
      intro member
      rw [hiddenName_of_marker (settled.tended.drawn target member)]
        at isVisible
      cases isVisible
    · exact Or.inl linked
  · intro other candidate isHidden linked
    refine Or.inl ?_
    rw [entries, if_neg, linked]
    rintro rfl
    rw [isHidden] at isVisible
    cases isVisible
  · rw [disk]
    exact fun _ _ _ _ => Or.inl rfl

/-- An entry that goes. -/
theorem Shared.Turns.detach (settled : before.Settled)
    (unmoved : Shared.Unmoved actor before after) {name : Name}
    (disk : after.world.disk = before.world.disk.detach (.top name))
    (spares : hiddenName name = true → ∀ ref,
      before.world.disk.entry (.top name) = some ref →
        ∃ owner, (before.world.disk.files ref).creator = some owner ∧
          (before.world.alive owner = false ∨ actor = some owner ∧
            before.world.Spared owner name ref.inode)) :
    Shared.Turns actor before after := by
  have entries : ∀ other, after.world.disk.entry (.top other) =
      if other = name then none
      else before.world.disk.entry (.top other) := by
    intro other
    rw [disk, Disk.entry_detach]
    simp
  refine ⟨unmoved, ?_, ?_, ?_, ?_, ?_, ?_, ?_, ?_⟩
  · rw [disk]
    rfl
  · rw [disk]
    exact Nat.le_refl _
  · rw [disk]
    exact settled.tended.flat
  · rw [disk]
    exact fun _ _ => ⟨rfl, rfl⟩
  · rw [disk]
    exact fun _ _ origin => Or.inl origin
  · intro other candidate linked
    rw [entries] at linked
    split at linked
    · cases linked
    · exact Or.inl linked
  · intro other candidate isHidden linked
    by_cases same : other = name
    · subst same
      exact Or.inr (spares isHidden candidate linked)
    · refine Or.inl ?_
      rw [entries, if_neg same, linked]
  · rw [disk]
    exact fun _ _ _ _ => Or.inl rfl

/-- A file that is written. -/
theorem Shared.Turns.setFile (settled : before.Settled)
    (unmoved : Shared.Unmoved actor before after) {ref : FileRef}
    {file : File}
    (disk : after.world.disk = before.world.disk.setFile ref file)
    (creator : file.creator = (before.world.disk.files ref).creator)
    (marker : ∀ name ∈ before.drawn,
      before.world.disk.origin ref = some (.top name) →
        ∃ self created volume file' filename, actor = some self ∧
          before.world.alive self = true ∧
          (before.world.disk.files ref).creator = some self ∧
          (before.world.disk.files ref).content <+: file.content ∧
          0 ≤ created ∧ volume < 2 ^ 64 ∧ file' < 2 ^ 64 ∧
          file.content <+: pluginText (before.world.pidOf self) created
            volume file' filename ∧
          (before.world.standing self).noted = some file' ∧
          before.world.Spared self name ref.inode) :
    Shared.Turns actor before after := by
  have files : ∀ other, after.world.disk.files other =
      if other = ref then file else before.world.disk.files other := by
    intro other
    rw [disk]
    exact Function.update_apply _ _ _ _
  refine ⟨unmoved, ?_, ?_, ?_, ?_, ?_, ?_, ?_, ?_⟩
  · rw [disk]
    rfl
  · rw [disk]
    exact Nat.le_refl _
  · rw [disk]
    exact settled.tended.flat
  · intro other _
    refine ⟨by rw [disk]; rfl, ?_⟩
    rw [files]
    split
    · rename_i same
      rw [same, creator]
    · rfl
  · rw [disk]
    exact fun _ _ origin => Or.inl origin
  · rw [disk]
    exact fun _ _ linked => Or.inl linked
  · rw [disk]
    exact fun _ _ _ linked => Or.inl linked
  · intro name other member origin
    rw [files]
    split
    · rename_i same
      subst same
      exact Or.inr (marker name member origin)
    · exact Or.inl rfl

/-- A new directory. -/
theorem Shared.Turns.plantDirectory (settled : before.Settled)
    (unmoved : Shared.Unmoved actor before after) {name : Name} {mode : Mode}
    (disk : after.world.disk = before.world.disk.plantDirectory name mode)
    (absent : before.world.disk.root.lookup name = none)
    (irregular : mode.regular = false) :
    Shared.Turns actor before after := by
  have entries : ∀ other, after.world.disk.entry (.top other) =
      before.world.disk.entry (.top other) := by
    intro other
    rw [disk]
    by_cases equal : other = name
    · subst equal
      simp [Disk.entry, Disk.plantDirectory, absent]
    · simp [Disk.entry, Disk.plantDirectory, AList.lookup_insert_ne equal]
  refine ⟨unmoved, ?_, ?_, ?_, ?_, ?_, ?_, ?_, ?_⟩
  · rw [disk]
    rfl
  · rw [disk]
    exact Nat.le_refl _
  · intro id
    rw [disk]
    by_cases equal : id = before.world.disk.nextDirectory
    · subst equal
      simp [Disk.plantDirectory, irregular]
    · simp [Disk.plantDirectory, Function.update_of_ne equal,
        settled.tended.flat]
  · rw [disk]
    exact fun _ _ => ⟨rfl, rfl⟩
  · rw [disk]
    exact fun _ _ origin => Or.inl origin
  · intro other ref found
    rw [entries] at found
    exact Or.inl found
  · intro other ref _ found
    rw [entries]
    exact Or.inl found
  · rw [disk]
    exact fun _ _ _ _ => Or.inl rfl

theorem turns_of_meddling (settled : before.Settled)
    (drawn : after.drawn = before.drawn) {meddling : Meddling} {disk : Disk}
    (done : meddling.effect before.world.disk = some disk)
    (admitted : before.world.admits meddling.adds = true)
    (changed : after.world = before.world.withDisk disk) :
    Shared.Turns none before after := by
  have unmoved : Shared.Unmoved none before after := by
    refine ⟨?_, ?_, ?_, ?_, ?_, ?_, ?_, [], ?_, ?_⟩
    all_goals first
      | (rw [changed]; exact fun _ => rfl)
      | (rw [changed]; exact fun _ _ => rfl)
      | (rw [changed]; rfl)
      | (rw [drawn, List.append_nil])
      | (rintro name ⟨⟩)
  have same : after.world.disk = disk := by
    rw [changed]
    rfl
  unfold Meddling.effect at done
  cases meddling with
  | remove name =>
      dsimp only at done
      split at done
      · cases done
      · rename_i isVisible
        cases done
        exact .detach settled unmoved same fun isHidden =>
          absurd isHidden isVisible
  | put name ref content mode =>
      dsimp only at done
      split at done
      · rename_i possible
        cases done
        have notHidden : ¬hiddenName name = true := by simp [possible.1]
        refine .plant settled unmoved same possible.2 admitted ?_
          (fun isHidden => absurd isHidden notHidden) ?_
          (fun isHidden => absurd isHidden notHidden)
        · exact fun member => notHidden
            (hiddenName_of_marker (settled.tended.drawn name member))
        · intro member
          rw [drawn] at member
          exact absurd (hiddenName_of_marker
            (settled.tended.drawn name member)) notHidden
      · cases done
  | link source target =>
      dsimp only at done
      split at done
      · rename_i ref found
        split at done
        · cases done
        · rename_i possible
          cases done
          simp only [Bool.or_eq_true, not_or, Bool.not_eq_true] at possible
          exact .attach settled unmoved same found
            (settled.tended.visible source ref found possible.1) possible.2
            admitted
      · cases done
  | makeDirectory name mode =>
      dsimp only at done
      split at done
      · rename_i possible
        cases done
        exact .plantDirectory settled unmoved same possible.2.1 possible.2.2
      · cases done
  | rewrite name content mode =>
      dsimp only at done
      split at done
      · rename_i ref found
        split at done
        · cases done
        · rename_i isVisible
          cases done
          refine .setFile settled unmoved same rfl ?_
          intro other member origin
          exact absurd origin (settled.tended.visible name ref found
            (Bool.not_eq_true _ ▸ isVisible) other member)
      · cases done

end RymgaLoader.Native
