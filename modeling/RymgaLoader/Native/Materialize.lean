import RymgaLoader.Native.Guarantees
import RymgaLoader.Native.PluginCalls

/-!
# Publishing a plugin alone

What `rymga_platform_materialize_plugin` leaves in a plugin directory that
nobody else touches, for every outcome of its calls: either the directory the
cleanup left, or that directory with a copy of the source under two names and
its marker, and what `rymga_platform_release_plugin` then makes of it.
-/

namespace RymgaLoader.Native

open Disk

/-- Since `base`, exactly the files `extra` were added to the shared
directory. -/
structure Adding (base : Disk) (extra : Name → Option FileRef) (disk : Disk) :
    Prop where
  root : ∀ name, disk.root.lookup name =
    match extra name with
    | some ref => some (.file ref)
    | none => base.root.lookup name
  absent : ∀ name ref, extra name = some ref → base.root.lookup name = none
  directories : disk.directories = base.directories
  nextDirectory : disk.nextDirectory = base.nextDirectory
  volume : disk.volume = base.volume
  files : ∀ ref, ref.index < base.nextFile → disk.files ref = base.files ref
  later : base.nextFile ≤ disk.nextFile
  newer : ∀ name ref, extra name = some ref → base.nextFile ≤ ref.index ∧
    ref.index < disk.nextFile

namespace Adding

variable {base disk : Disk} {extra : Name → Option FileRef}

theorem refl (disk : Disk) : Adding disk (fun _ => none) disk :=
  ⟨fun _ => rfl, by simp, rfl, rfl, rfl, fun _ _ => rfl, Nat.le_refl _,
    by simp⟩

theorem settled (adding : Adding base (fun _ => none) disk) :
    Settled base disk :=
  ⟨adding.root, fun id _ => by rw [adding.directories], adding.files⟩

theorem lookup_eq_none_iff (adding : Adding base extra disk) {name : Name} :
    disk.root.lookup name = none ↔
      extra name = none ∧ base.root.lookup name = none := by
  rw [adding.root]
  cases extra name with
  | none => simp
  | some ref => simp

theorem entry_extra (adding : Adding base extra disk) {name : Name}
    {ref : FileRef} (added : extra name = some ref) :
    disk.entry (.top name) = some ref := by
  rw [entry, adding.root, added]

theorem entry_base (adding : Adding base extra disk) {name : Name}
    (unchanged : extra name = none) :
    disk.entry (.top name) = base.entry (.top name) := by
  rw [entry, adding.root, unchanged]
  rfl

theorem detach (adding : Adding base extra disk) {name : Name}
    (absent : base.root.lookup name = none) :
    Adding base (Function.update extra name none)
      (disk.detach (.top name)) where
  root candidate := by
    by_cases same : candidate = name
    · subst same
      simp [Disk.detach, absent]
    · rw [Function.update_of_ne same, ← adding.root]
      exact AList.lookup_erase_ne same
  absent candidate ref added := by
    by_cases same : candidate = name
    · subst same
      exact absent
    · rw [Function.update_of_ne same] at added
      exact adding.absent candidate ref added
  directories := adding.directories
  nextDirectory := adding.nextDirectory
  volume := adding.volume
  files := adding.files
  later := adding.later
  newer candidate ref added := by
    by_cases same : candidate = name
    · subst same
      simp at added
    · rw [Function.update_of_ne same] at added
      exact adding.newer candidate ref added

theorem attach (adding : Adding base extra disk) {name : Name} {ref : FileRef}
    (vacant : disk.root.lookup name = none)
    (newer : base.nextFile ≤ ref.index ∧ ref.index < disk.nextFile) :
    Adding base (Function.update extra name (some ref))
      (disk.attach (.top name) ref) where
  root candidate := by
    by_cases same : candidate = name
    · subst same
      simp [Disk.attach]
    · rw [Function.update_of_ne same, ← adding.root]
      exact AList.lookup_insert_ne same
  absent candidate other added := by
    by_cases same : candidate = name
    · subst same
      exact (adding.lookup_eq_none_iff.mp vacant).2
    · rw [Function.update_of_ne same] at added
      exact adding.absent candidate other added
  directories := adding.directories
  nextDirectory := adding.nextDirectory
  volume := adding.volume
  files := adding.files
  later := adding.later
  newer candidate other added := by
    by_cases same : candidate = name
    · subst same
      rw [Function.update_self] at added
      cases added
      exact newer
    · rw [Function.update_of_ne same] at added
      exact adding.newer candidate other added

theorem setFile (adding : Adding base extra disk) {ref : FileRef}
    (newer : base.nextFile ≤ ref.index) (file : File) :
    Adding base extra (disk.setFile ref file) where
  root := adding.root
  absent := adding.absent
  directories := adding.directories
  nextDirectory := adding.nextDirectory
  volume := adding.volume
  files other older := by
    have different : other ≠ ref := by
      rintro rfl
      omega
    exact (Function.update_of_ne different _ _).trans
      (adding.files other older)
  later := adding.later
  newer := adding.newer

theorem append (adding : Adding base extra disk) {ref : FileRef}
    (newer : base.nextFile ≤ ref.index) (bytes : Bytes) :
    Adding base extra (disk.append ref bytes) :=
  adding.setFile newer _

theorem create (adding : Adding base extra disk) {name : Name}
    {ref : FileRef} (vacant : disk.root.lookup name = none)
    (fresh : disk.Fresh ref) (self : Process) :
    Adding base (Function.update extra name (some ref))
      (disk.create (.top name) ref self) := by
  have newer : base.nextFile ≤ ref.index := by
    rw [fresh.1]
    exact adding.later
  have filled := adding.setFile newer ⟨[], .privateFile, some self⟩
  have advanced : Adding base extra
      { disk.setFile ref ⟨[], .privateFile, some self⟩ with
        nextFile := disk.nextFile + 1
        origin := Function.update disk.origin ref (some (.top name)) } :=
    ⟨filled.root, filled.absent, filled.directories, filled.nextDirectory,
      filled.volume, filled.files, Nat.le_succ_of_le filled.later, fun candidate other added =>
        ⟨(filled.newer candidate other added).1,
          Nat.lt_succ_of_lt (filled.newer candidate other added).2⟩⟩
  refine advanced.attach vacant ⟨newer, ?_⟩
  change ref.index < disk.nextFile + 1
  rw [fresh.1]
  exact Nat.lt_succ_self _

end Adding

/-- The marker names that are drawn are not present. -/
def drawsFresh (pluginDirectory : Bytes) (call : Call) (world : World)
    (answer : Answer call) : Prop :=
  match call, answer with
  | .random _, bytes => world.disk.root.lookup
      (fitted pluginDirectory (markerNameOf bytes)) = none
  | _, _ => True

def undisturbed (pluginDirectory : Bytes) (call : Call) (world : World)
    (answer : Answer call) : Prop :=
  deletionsSucceed call world answer ∧
    drawsFresh pluginDirectory call world answer

theorem ensures_deletions (pluginDirectory : Bytes) :
    Ensures (undisturbed pluginDirectory) deletionsSucceed :=
  fun _ _ _ allowed => allowed.1

variable {self : Process} {pluginDirectory : Bytes} {before after : World}
  {base : Disk} {extra : Name → Option FileRef}
  {allowed : (call : Call) → World → Answer call → Prop}

theorem unlink_adding (deletes : Ensures allowed deletionsSucceed)
    (adding : Adding base extra before.disk) {name : Name}
    (absent : base.root.lookup name = none) {answer : Bool}
    (answered : alone self allowed (.unlink (.top name)) before answer
      after) :
    Adding base (Function.update extra name none) after.disk := by
  obtain ⟨done, permitted⟩ := answered
  rcases World.exec_unlink done with ⟨rfl, same⟩ | ⟨slot, -, resolved, -,
    same⟩
  · have missing : before.disk.entry (.top name) = none :=
      deletes _ _ _ permitted rfl
    have unchanged : extra name = none := by
      cases added : extra name with
      | none => rfl
      | some ref =>
          rw [adding.entry_extra added] at missing
          cases missing
    rw [same, ← unchanged, Function.update_eq_self]
    exact adding
  · cases resolved
    rw [same]
    exact adding.detach absent

/-- Part of `bytes` was appended to the output, all of it on success. -/
def Copied (output : FileRef) (bytes : Bytes) (before : World) (ok : Bool)
    (after : World) : Prop :=
  ∃ written, after.disk = before.disk.append output written ∧
    (ok = true → written = bytes)

theorem writeChunk_wp {output : FileRef} {rounds interruptions : Nat}
    {bytes : Bytes} (before : World) :
    Program.wp (alone self allowed)
      (writeChunk output rounds interruptions bytes)
      (fun left after => Copied output bytes before left.isSome after)
      before := by
  induction rounds generalizing interruptions bytes before with
  | zero =>
      cases bytes with
      | nil => exact ⟨[], (append_nil _ _).symm, fun _ => rfl⟩
      | cons byte bytes => exact ⟨[], (append_nil _ _).symm, by simp⟩
  | succ rounds ih =>
      cases bytes with
      | nil => exact ⟨[], (append_nil _ _).symm, fun _ => rfl⟩
      | cons byte bytes =>
          simp only [writeChunk, Program.perform_bind]
          intro answer between answered
          rcases World.exec_writeOutput answered.1 with
            ⟨incomplete, same, -⟩ | ⟨count, rfl, -, written⟩
          · cases answer with
            | completed count => exact absurd rfl (incomplete count)
            | failed =>
                exact ⟨[], by rw [same, append_nil], by simp⟩
            | interrupted =>
                refine Program.wp_mono (ih between) ?_
                rintro left after ⟨copied, disk, complete⟩
                exact ⟨copied, by rw [disk, same], complete⟩
          · cases count with
            | zero =>
                exact ⟨[], by rw [written, List.take_zero], by simp⟩
            | succ count =>
                refine Program.wp_mono (ih between) ?_
                rintro left after ⟨copied, disk, complete⟩
                refine ⟨(byte :: bytes).take (count + 1) ++ copied, ?_, ?_⟩
                · rw [disk, written, append_append]
                · intro whole
                  rw [complete whole, List.take_append_drop]

theorem readInput_chunk {interruptions : Nat} {rest chunk : Bytes}
    (done : before.exec self (.readInput interruptions rest)
      (.completed chunk) = some after) :
    chunk <+: rest ∧ (chunk = [] → rest = []) := by
  unfold World.exec World.effect at done
  dsimp only at done
  split at done
  · rename_i valid
    exact ⟨List.isPrefixOf_iff_prefix.mp valid.1, valid.2.1⟩
  · cases done

theorem copyRounds_wp {output : FileRef} {rounds interruptions : Nat}
    {rest : Bytes} (before : World) :
    Program.wp (alone self allowed)
      (copyRounds output rounds interruptions rest)
      (Copied output rest before) before := by
  induction rounds generalizing interruptions rest before with
  | zero => exact ⟨[], (append_nil _ _).symm, by simp⟩
  | succ rounds ih =>
      simp only [copyRounds, Program.perform_bind]
      intro answer between answered
      have same := World.exec_disk rfl answered.1
      cases answer with
      | failed => exact ⟨[], by rw [same, append_nil], by simp⟩
      | interrupted =>
          refine Program.wp_mono (ih between) ?_
          rintro ok after ⟨copied, disk, complete⟩
          exact ⟨copied, by rw [disk, same], complete⟩
      | completed chunk =>
          have taken := readInput_chunk answered.1
          cases chunk with
          | nil =>
              refine ⟨[], by rw [same, append_nil], fun _ => ?_⟩
              exact (taken.2 rfl).symm
          | cons byte bytes =>
              dsimp only
              rw [Program.wp_bind]
              refine Program.wp_mono (writeChunk_wp between) ?_
              rintro left middle ⟨chunk, disk, complete⟩
              cases left with
              | none => exact ⟨chunk, by rw [disk, same], by simp⟩
              | some interruptions =>
                  refine Program.wp_mono (ih middle) ?_
                  rintro ok after ⟨copied, final, whole⟩
                  refine ⟨chunk ++ copied, ?_, ?_⟩
                  · rw [final, disk, same, append_append]
                  · intro finished
                    rw [complete rfl, whole finished]
                    obtain ⟨tail, rfl⟩ := taken.1
                    rw [← List.length_cons, List.drop_left]

theorem copySource_wp {output : FileRef} {interruptions : Nat}
    {source : Bytes} :
    Program.wp (alone self allowed) (copySource interruptions output source)
      (Copied output source before) before := by
  have closing : ∀ (copied : Bool) (world : World),
      Copied output source before copied world →
      Program.wp (alone self allowed) (do
          let synced ← if copied then sys (.fsync output) else pure false
          let closed ← sys .close
          return synced && closed)
        (Copied output source before) world := by
    rintro copied world ⟨written, disk, complete⟩
    cases copied with
    | false =>
        refine wp_quiet rfl fun closed after _ same => ?_
        exact ⟨written, same.trans disk, by simp⟩
    | true =>
        refine wp_quiet rfl fun synced middle _ first => ?_
        refine wp_quiet rfl fun closed after _ second => ?_
        exact ⟨written, (second.trans first).trans disk,
          fun _ => complete rfl⟩
  simp only [copySource, Program.perform_bind]
  refine wp_quiet rfl fun restricted middle _ same => ?_
  cases restricted with
  | false =>
      refine closing false middle ⟨[], ?_, by simp⟩
      rw [same, append_nil]
  | true =>
      rw [if_pos rfl, Program.wp_bind]
      refine Program.wp_mono (copyRounds_wp middle) ?_
      rintro copied after ⟨written, disk, complete⟩
      exact closing copied after ⟨written, by rw [disk, same], complete⟩

/-- Runs in which no transfer of the copy fails. -/
def transferring (call : Call) (_ : World) (answer : Answer call) : Prop :=
  match call, answer with
  | .readInput _ _, answer => answer ≠ .failed
  | .writeOutput _ _ _, answer => answer ≠ .failed ∧ answer ≠ .completed 0
  | _, _ => True

/-- Signals and short writes do not use up the rounds of a chunk. -/
theorem writeChunk_completes {output : FileRef} {rounds interruptions : Nat}
    {bytes : Bytes} (enough : interruptions + bytes.length ≤ rounds) :
    Program.wp (alone self transferring)
      (writeChunk output rounds interruptions bytes)
      (fun left _ => ∃ rest, left = some rest ∧ rest ≤ interruptions)
      before := by
  induction rounds generalizing interruptions bytes before with
  | zero =>
      cases bytes with
      | nil => exact ⟨interruptions, rfl, Nat.le_refl _⟩
      | cons byte bytes => simp at enough
  | succ rounds ih =>
      cases bytes with
      | nil => exact ⟨interruptions, rfl, Nat.le_refl _⟩
      | cons byte bytes =>
          simp only [writeChunk, Program.perform_bind]
          intro answer between answered
          rcases World.exec_writeOutput answered.1 with
            ⟨incomplete, -, signalled⟩ | ⟨count, rfl, -, -⟩
          · cases answer with
            | completed count => exact absurd rfl (incomplete count)
            | failed => exact absurd rfl answered.2.1
            | interrupted =>
                have signals := signalled rfl
                refine Program.wp_mono (ih (by omega)) ?_
                rintro left after ⟨rest, rfl, fewer⟩
                exact ⟨rest, rfl, by omega⟩
          · cases count with
            | zero => exact absurd rfl answered.2.2
            | succ count =>
                refine ih ?_
                simp only [List.length_drop, List.length_cons] at enough ⊢
                omega

/-- A copy in which no transfer fails is complete, however many signals and
short transfers there are. -/
theorem copyRounds_completes {output : FileRef} {rounds interruptions : Nat}
    {rest : Bytes} (enough : interruptions + rest.length < rounds) :
    Program.wp (alone self transferring)
      (copyRounds output rounds interruptions rest)
      (fun ok _ => ok = true) before := by
  induction rounds generalizing interruptions rest before with
  | zero => omega
  | succ rounds ih =>
      simp only [copyRounds, Program.perform_bind]
      intro answer between answered
      cases answer with
      | failed => exact absurd rfl answered.2
      | interrupted =>
          have signals : 0 < interruptions := by
            have done := answered.1
            unfold World.exec World.effect at done
            dsimp only at done
            split at done
            · assumption
            · cases done
          exact ih (by omega)
      | completed chunk =>
          cases chunk with
          | nil => exact rfl
          | cons byte bytes =>
              have taken := readInput_chunk answered.1
              have shorter := taken.1.length_le
              dsimp only
              rw [Program.wp_bind]
              refine Program.wp_mono (writeChunk_completes (by simp)) ?_
              rintro left middle ⟨fewer, rfl, bound⟩
              refine ih ?_
              simp only [List.length_drop, List.length_cons] at shorter ⊢
              omega

theorem copyInput_completes {output : FileRef} {interruptions : Nat}
    {source : Bytes} :
    Program.wp (alone self transferring)
      (copyInput interruptions output source)
      (fun ok _ => ok = true) before :=
  copyRounds_completes (Nat.lt_succ_self _)

theorem pluginMarkerName_markerNameOf {random : Bytes}
    (count : random.length = 16) :
    pluginMarkerName (markerNameOf random) = true := by
  have hex := Hex.length_encode random
  have stem : markerStem.length = 15 := rfl
  have ending : markerEnding.length = 6 := rfl
  simp only [pluginMarkerName, markerNameOf, Bool.decide_and,
    Bool.and_eq_true, decide_eq_true_eq, List.all_eq_true]
  refine ⟨?_, ?_, ?_, ?_⟩
  · simp only [List.length_append]
    omega
  · rw [List.append_assoc, List.take_left]
  · rw [List.length_append, Nat.add_sub_cancel, List.drop_left]
  · intro byte member
    rw [List.append_assoc, List.drop_left,
      List.take_left' (by omega)] at member
    exact (encode_visible member).2.2

/-- A path that fits its buffer is kept as it is. -/
theorem drop_take_slashed {limit : Nat} {directory : Bytes} {name : Name}
    (fits : (slashed directory name).length < limit) :
    ((slashed directory name).take (limit - 1)).drop (directory.length + 1) =
      name := by
  have shape : slashed directory name = (directory ++ [0x2F]) ++ name := by
    simp [slashed]
  rw [List.take_of_length_le (by omega), shape]
  exact List.drop_left' (by simp)

theorem fitted_eq {name : Name}
    (fits : (slashed pluginDirectory name).length < pathMax) :
    fitted pluginDirectory name = name := drop_take_slashed fits

/-- The name left in the path of the marker is that of no entry, or none was
ever written there. -/
def Unused (base : Disk) (extra : Name → Option FileRef) (path : Name) :
    Prop :=
  path = [] ∨ extra path = none ∧ base.root.lookup path = none

/-- What `createPluginMarker` leaves behind. -/
structure MarkerTry (owner : Process) (volume file : Nat) (filename : Name)
    (base : Disk) (extra : Name → Option FileRef) (before : World)
    (result : Bool × Name) (after : World) : Prop where
  made : result.1 = true → pluginMarkerName result.2 = true ∧
    extra result.2 = none ∧ base.root.lookup result.2 = none ∧
    ∃ marker created, (0 : Int64) ≤ created ∧
      Adding base (Function.update extra result.2 (some marker)) after.disk ∧
      after.disk.files marker =
        ⟨pluginText (before.pidOf owner) created volume file filename,
          .privateFile, some owner⟩
  undone : result.1 = false → Adding base extra after.disk ∧
    Unused base extra result.2
  files : ∀ ref, ref.index < before.disk.nextFile →
    after.disk.files ref = before.disk.files ref

variable {filename : Name} {volume file : Nat}

/-- What `writePluginMarker` leaves behind. -/
structure MarkerWrite (owner : Process) (text : Int64 → Bytes) (name : Name)
    (marker : FileRef) (base : Disk) (extra : Name → Option FileRef)
    (before : World) (ok : Bool) (after : World) : Prop where
  written : ok = true → ∃ created, (0 : Int64) ≤ created ∧
    Adding base (Function.update extra name (some marker)) after.disk ∧
    after.disk.files marker = ⟨text created, .privateFile, some owner⟩
  removed : ok = false → Adding base extra after.disk
  files : ∀ ref, ref.index < before.disk.nextFile →
    after.disk.files ref = before.disk.files ref

/-- A marker that was created and holds the beginning of its text. -/
structure MarkerBegun (owner : Process) (text : Bytes) (name : Name)
    (marker : FileRef) (base : Disk) (extra : Name → Option FileRef)
    (before after : World) : Prop where
  holds : Adding base (Function.update extra name (some marker)) after.disk
  filled : after.disk.files marker = ⟨text, .privateFile, some owner⟩
  files : ∀ ref, ref.index < before.disk.nextFile →
    after.disk.files ref = before.disk.files ref

theorem MarkerBegun.of_append {owner : Process} {text : Bytes} {name : Name}
    {marker : FileRef} (adding : Adding base extra before.disk)
    (vacant : before.disk.root.lookup name = none)
    (fresh : before.disk.Fresh marker)
    (grown : after.disk =
      (before.disk.create (.top name) marker owner).append marker text) :
    MarkerBegun owner text name marker base extra before after where
  holds := by
    rw [grown]
    refine (adding.create vacant fresh owner).append ?_ text
    rw [fresh.1]
    exact adding.later
  filled := by
    have blank : (before.disk.create (.top name) marker owner).files marker =
        ⟨[], .privateFile, some owner⟩ := Function.update_self ..
    rw [grown, Disk.append, Disk.setFile, blank]
    exact Function.update_self ..
  files := by
    intro ref early
    have different : ref ≠ marker := by
      rintro rfl
      rw [fresh.1] at early
      omega
    rw [grown]
    exact (Function.update_of_ne different _ _).trans
      (Function.update_of_ne different _ _)

/-- The marker goes away again. -/
theorem MarkerBegun.unlink_wp {owner : Process} {text : Bytes} {name : Name}
    {marker : FileRef} {start : World}
    (begun : MarkerBegun owner text name marker base extra start before)
    (unused : extra name = none ∧ base.root.lookup name = none)
    (deletes : Ensures allowed deletionsSucceed) {full : Int64 → Bytes} :
    Program.wp (alone self allowed)
      (.call (.unlink (.top name)) fun _ => .done false)
      (MarkerWrite owner full name marker base extra start) before := by
  intro answer final answered
  have removed := unlink_adding deletes begun.holds unused.2 answered
  rw [Function.update_idem, ← unused.1, Function.update_eq_self] at removed
  refine ⟨by simp, fun _ => removed, fun ref early => ?_⟩
  rw [← begun.files ref early]
  rcases World.exec_unlink answered.1 with ⟨-, kept⟩ | ⟨slot, -, found, -, kept⟩
  · rw [kept]
  · cases found
    rw [kept]
    rfl

/-- A text that fits is appended, as far as the device takes it. -/
theorem writeFitting_wp {marker : FileRef} {text : Bytes} :
    Program.wp (alone self allowed) (writeFitting marker text)
      (fun ok after => ∃ written,
        after.disk = before.disk.append marker written ∧
        (ok = true → written = text)) before := by
  simp only [writeFitting]
  split
  · exact Program.wp_mono (writeAll_wp before) fun _ _ written =>
      written.disk
  · exact ⟨[], (append_nil _ _).symm, by simp⟩

/-- The marker is written or removed again. -/
theorem writePluginMarker_wp {name : Name} {marker : FileRef}
    (adding : Adding base extra before.disk)
    (vacant : before.disk.root.lookup name = none)
    (fresh : before.disk.Fresh marker)
    (made : after.disk = before.disk.create (.top name) marker self)
    (deletes : Ensures allowed deletionsSucceed) :
    Program.wp (alone self allowed)
      (writePluginMarker marker name filename volume file)
      (MarkerWrite self (pluginText (after.pidOf self) · volume file filename)
        name marker base extra before) after := by
  have unused := adding.lookup_eq_none_iff.mp vacant
  simp only [writePluginMarker, Program.perform_bind]
  intro pid afterPid answeredPid
  obtain ⟨rfl, samePid⟩ := World.exec_getpid answeredPid.1
  intro created afterTime answeredTime
  obtain ⟨epoch, sameTime⟩ := World.exec_time answeredTime.1
  rw [Program.wp_bind]
  refine Program.wp_mono writeFitting_wp ?_
  rintro ok afterWrite ⟨text, grown, complete⟩
  have begun : ∀ world : World, world.disk = afterWrite.disk →
      MarkerBegun self text name marker base extra before world := by
    intro world same
    exact .of_append adding vacant fresh (by
      rw [same, grown, sameTime, samePid, made])
  cases ok with
  | false =>
      refine wp_quiet rfl fun closed afterClose _ sameClose => ?_
      exact (begun afterClose sameClose).unlink_wp unused deletes
  | true =>
      refine wp_quiet rfl fun synced afterSync _ sameSync => ?_
      refine wp_quiet rfl fun closed afterClose _ sameClose => ?_
      have whole := begun afterClose (sameClose.trans sameSync)
      by_cases finished : (synced && closed) = true
      · rw [if_pos finished]
        cases complete rfl
        exact ⟨fun _ => ⟨created, epoch, whole.holds, whole.filled⟩, by simp,
          whole.files⟩
      · rw [if_neg finished]
        exact whole.unlink_wp unused deletes

theorem markerAttempts_wp {attempts : Nat} {path : Name}
    (adding : Adding base extra before.disk) (unused : Unused base extra path) :
    Program.wp (alone self (undisturbed pluginDirectory))
      (markerAttempts pluginDirectory filename volume file attempts path)
      (MarkerTry self volume file filename base extra before) before := by
  induction attempts generalizing path before with
  | zero => exact ⟨by simp, fun _ => ⟨adding, unused⟩, fun _ _ => rfl⟩
  | succ attempts ih =>
      simp only [markerAttempts, Program.perform_bind]
      intro random drawn answeredRandom
      have same := World.exec_disk rfl answeredRandom.1
      have pids := (World.exec_frame answeredRandom.1).2.1
      have sized := World.exec_random answeredRandom.1
      have free : before.disk.root.lookup
          (fitted pluginDirectory (markerNameOf random)) = none :=
        answeredRandom.2.2
      have fresh : Unused base extra
          (fitted pluginDirectory (markerNameOf random)) :=
        Or.inr (adding.lookup_eq_none_iff.mp free)
      have unmade : ∀ world : World, world.disk = before.disk →
          MarkerTry self volume file filename base extra before
            (false, fitted pluginDirectory (markerNameOf random)) world := by
        intro world kept
        exact ⟨by simp, fun _ => ⟨kept ▸ adding, fresh⟩, fun _ _ => by
          rw [kept]⟩
      dsimp only
      split
      · exact unmade drawn same
      · rename_i long
        rw [fitted_eq (by omega)] at free fresh unmade ⊢
        intro opened created answered
        have createdPids := (World.exec_frame answered.1).2.1.trans pids
        rcases World.exec_openExcl answered.1 with ⟨notOpened, kept⟩ |
          ⟨marker, slot, rfl, resolved, -, freshMarker, disk⟩
        · cases opened with
          | opened ref => exact absurd rfl (notOpened ref)
          | failed => exact unmade created (kept.trans same)
          | occupied =>
              have still := kept.trans same
              refine Program.wp_mono (ih (still ▸ adding) fresh) ?_
              rintro result final ⟨made, undone, files⟩
              rw [createdPids] at made
              rw [still] at files
              exact ⟨made, undone, files⟩
        · cases resolved
          rw [same] at freshMarker disk
          have unseen := adding.lookup_eq_none_iff.mp free
          dsimp only
          rw [Program.wp_bind]
          refine Program.wp_mono (writePluginMarker_wp adding free freshMarker
            disk (ensures_deletions pluginDirectory)) ?_
          rintro ok final ⟨written, removed, files⟩
          rw [createdPids] at written
          refine ⟨?_, ?_, files⟩
          · rintro rfl
            obtain ⟨now, epoch, holds, content⟩ := written rfl
            exact ⟨pluginMarkerName_markerNameOf sized, unseen.1, unseen.2,
              marker, now, epoch, holds, content⟩
          · rintro rfl
            exact ⟨removed rfl, fresh⟩

/-- An identity that is read is that of the entry. -/
theorem fileIdentity_reads {accepts : Mode → Bool} {name : Name} :
    Program.wp (alone self allowed) (fileIdentity accepts name)
      (fun found after => after.disk = before.disk ∧
        after.pidOf = before.pidOf ∧
        ∀ identity ref, found = some identity →
          before.disk.entry (.top name) = some ref →
            (before.disk.volume, ref.inode) = identity) before := by
  simp only [fileIdentity, Program.perform_bind]
  intro answer after answered
  have disk := World.exec_disk rfl answered.1
  have pids := (World.exec_frame answered.1).2.1
  cases answer with
  | none => exact ⟨disk, pids, by simp⟩
  | some info =>
      have told : before.disk.stat (.top name) = some info := by
        have done := answered.1
        unfold World.exec World.effect at done
        dsimp only at done
        split at done
        · assumption
        · cases done
      dsimp only
      split
      · refine ⟨disk, pids, ?_⟩
        rintro identity ref ⟨⟩ linked
        simp only [Disk.stat, Disk.lookup, Disk.resolve, Option.bind_some,
          linked, Option.some.injEq] at told
        subst told
        rfl
      · exact ⟨disk, pids, by simp⟩

/-- A file with another identity stays. -/
theorem removeSame_other {accepts : Mode → Bool} {identity : Nat × Nat}
    {name : Name}
    (other : ∀ ref, before.disk.entry (.top name) = some ref →
      (before.disk.volume, ref.inode) ≠ identity) :
    Program.wp (alone self allowed) (removeSame accepts identity name)
      (fun _ after => after.disk = before.disk) before := by
  simp only [removeSame]
  rw [Program.wp_bind]
  refine Program.wp_mono fileIdentity_reads ?_
  rintro found middle ⟨disk, -, told⟩
  by_cases matching : found = some identity
  · rw [if_pos matching]
    intro answer after answered
    rcases World.exec_unlink answered.1 with ⟨-, same⟩ |
      ⟨slot, -, resolved, present, -⟩
    · exact same.trans disk
    · cases resolved
      obtain ⟨ref, linked⟩ := Option.isSome_iff_exists.mp present
      rw [disk] at linked
      exact absurd (told identity ref matching linked) (other ref linked)
  · rw [if_neg matching]
    exact disk

theorem undoPlugin_wp {partialName marker : Name} {identity : Nat × Nat}
    (deletes : Ensures allowed deletionsSucceed)
    (adding : Adding base extra before.disk)
    (anchorless : base.root.lookup partialName = none)
    (markerless : marker = [] ∨ base.root.lookup marker = none)
    (only : ∀ name, name ≠ partialName → marker = [] ∨ name ≠ marker →
      extra name = none)
    (other : ∀ ref, base.entry (.top filename) = some ref →
      (base.volume, ref.inode) ≠ identity) :
    Program.wp (alone self allowed)
      (undoPlugin filename partialName marker identity)
      (fun result after => result = none ∧
        Adding base (fun _ => none) after.disk) before := by
  have finish : ∀ world : World, Adding base (fun _ => none) world.disk →
      Program.wp (alone self allowed)
        (removeSame Mode.ownRegular identity filename >>= fun _ =>
          pure (none : Option Plugin))
        (fun result after => result = none ∧
          Adding base (fun _ => none) after.disk) world := by
    intro world cleared
    rw [Program.wp_bind]
    refine Program.wp_mono (removeSame_other ?_) ?_
    · intro ref linked
      rw [cleared.entry_base rfl] at linked
      rw [cleared.volume]
      exact other ref linked
    · rintro _ after same
      exact ⟨rfl, same ▸ cleared⟩
  simp only [undoPlugin, Program.perform_bind]
  intro answer first answered
  have removed := unlink_adding deletes adding anchorless answered
  by_cases unset : marker = []
  · rw [if_neg (by simpa using unset)]
    refine finish first ?_
    have nothing : Function.update extra partialName none =
        fun _ => none := by
      funext name
      by_cases same : name = partialName
      · rw [same, Function.update_self]
      · rw [Function.update_of_ne same]
        exact only name same (Or.inl unset)
    rwa [nothing] at removed
  · rw [if_pos unset]
    intro answer second answered
    have cleared := unlink_adding deletes removed
      (markerless.resolve_left unset) answered
    refine finish second ?_
    have nothing : Function.update (Function.update extra partialName none)
        marker none = fun _ => none := by
      funext name
      by_cases same : name = marker
      · rw [same, Function.update_self]
      · rw [Function.update_of_ne same]
        by_cases anchor : name = partialName
        · rw [anchor, Function.update_self]
        · rw [Function.update_of_ne anchor]
          exact only name anchor (Or.inr same)
    rwa [nothing] at cleared

/-- The entries of a published plugin. -/
def Plugin.links (plugin : Plugin) (output marker : FileRef) (name : Name) :
    Option FileRef :=
  if name = plugin.destination ∨ name = plugin.anchor then some output
  else if name = plugin.marker then some marker
  else none

/-- Since `base`, exactly the three entries of `plugin` were added: two links
to one new file with this content, and its marker. -/
structure PublishedPlugin (owner : Process) (pid : Nat) (filename : Name)
    (source : Bytes) (base : Disk) (plugin : Plugin)
    (output marker : FileRef) (disk : Disk) : Prop where
  adding : Adding base (plugin.links output marker) disk
  destination : plugin.destination = filename
  anchor : pluginPartialName plugin.anchor = true
  marked : pluginMarkerName plugin.marker = true
  distinct : plugin.destination ≠ plugin.anchor ∧
    plugin.destination ≠ plugin.marker ∧ plugin.marker ≠ plugin.anchor
  identity : (plugin.volumeId, plugin.fileId) = (disk.volume, output.inode)
  copied : disk.files output = ⟨source, .privateFile, some owner⟩
  recorded : ∃ created : Int64, 0 ≤ created ∧ disk.files marker =
    ⟨pluginText pid created plugin.volumeId plugin.fileId filename,
      .privateFile, some owner⟩
  unshared : ∀ name ref, base.entry (.top name) = some ref →
    ref.inode ≠ output.inode

/-- What `publishPlugin` returns and leaves behind. -/
def PluginAttempt (owner : Process) (pid : Nat) (filename : Name)
    (source : Bytes) (base : Disk) (result : Option Plugin) (disk : Disk) :
    Prop :=
  match result with
  | none => Adding base (fun _ => none) disk
  | some plugin => ∃ output marker,
      PublishedPlugin owner pid filename source base plugin output marker disk

/-- The one entry a copy has before it is published. -/
def singleLink (name : Name) (ref : FileRef) : Name → Option FileRef :=
  Function.update (fun _ => none) name (some ref)

theorem mem_inodes_of_entry {disk : Disk} {name : Name} {ref : FileRef}
    (linked : disk.entry (.top name) = some ref) :
    ref.inode ∈ disk.inodes := by
  simp only [Disk.entry] at linked
  split at linked
  · rename_i other found
    cases linked
    have member : (⟨name, .file ref⟩ : Sigma fun _ : Name => Node) ∈
        disk.root.entries := AList.mem_lookup_iff.mp found
    exact List.mem_flatMap.mpr ⟨_, member, by simp⟩
  · cases linked

/-- The entries made one after the other. -/
theorem publishedLinks_eq {filename partialName marker : Name}
    {output markerRef : FileRef} {volume file : Nat}
    (different : marker ≠ partialName) :
    Function.update (Function.update (singleLink partialName output) marker
      (some markerRef)) filename (some output) =
      (Plugin.mk filename marker partialName volume file).links output
        markerRef := by
  funext name
  simp only [Plugin.links, singleLink, Function.update_apply]
  by_cases destination : name = filename
  · simp [destination]
  · by_cases marked : name = marker
    · subst marked
      simp [destination, different]
    · simp [destination, marked]

variable {partialName : Name} {output : FileRef} {source : Bytes}

/-- Undo a copy that has a marker at most. -/
private theorem undo_attempted {marker : Name} {identity : Nat × Nat}
    {pid : Nat} (adding : Adding base extra before.disk)
    (only : ∀ name, name ≠ partialName → marker = [] ∨ name ≠ marker →
      extra name = none)
    (anchorless : base.root.lookup partialName = none)
    (markerless : marker = [] ∨ base.root.lookup marker = none)
    (other : ∀ ref, base.entry (.top filename) = some ref →
      (base.volume, ref.inode) ≠ identity) :
    Program.wp (alone self (undisturbed pluginDirectory))
      (undoPlugin filename partialName marker identity)
      (fun result after => PluginAttempt self pid filename source base result
        after.disk) before := by
  refine Program.wp_mono (undoPlugin_wp (ensures_deletions pluginDirectory)
    adding anchorless markerless only other) ?_
  rintro result after ⟨rfl, cleared⟩
  exact cleared

/-- The link to the destination completes the plugin. -/
private theorem PublishedPlugin.of_link {start attempted : Disk}
    {marker : Name} {markerRef ref : FileRef} {pid : Nat} {created : Int64}
    (adding : Adding base (singleLink partialName output) start)
    (holds : Adding base (Function.update (singleLink partialName output)
      marker (some markerRef)) attempted)
    (different : marker ≠ partialName)
    (anchored : pluginPartialName partialName = true)
    (marked : pluginMarkerName marker = true)
    (copied : attempted.files output = ⟨source, .privateFile, some self⟩)
    (epoch : (0 : Int64) ≤ created)
    (recorded : attempted.files markerRef =
      ⟨pluginText pid created base.volume output.inode filename, .privateFile,
        some self⟩)
    (unshared : ∀ name ref, base.entry (.top name) = some ref →
      ref.inode ≠ output.inode)
    (vacant : attempted.root.lookup filename = none)
    (linked : attempted.entry (.top partialName) = some ref) :
    PublishedPlugin self pid filename source base
      ⟨filename, marker, partialName, base.volume, output.inode⟩ output
      markerRef (attempted.attach (.top filename) ref) := by
  have anchor : Function.update (singleLink partialName output) marker
      (some markerRef) partialName = some output := by
    rw [Function.update_of_ne different.symm]
    exact Function.update_self ..
  rw [holds.entry_extra anchor] at linked
  cases linked
  have added := holds.attach vacant
    ⟨(adding.newer partialName output (Function.update_self ..)).1,
      (holds.newer partialName output anchor).2⟩
  obtain ⟨fresh, -⟩ := holds.lookup_eq_none_iff.mp vacant
  have notMarker : filename ≠ marker := by
    rintro rfl
    rw [Function.update_self] at fresh
    cases fresh
  have notAnchor : filename ≠ partialName := by
    rintro rfl
    rw [anchor] at fresh
    cases fresh
  rw [publishedLinks_eq different] at added
  exact ⟨added, rfl, anchored, marked, ⟨notAnchor, notMarker, different⟩,
    by rw [added.volume], copied, ⟨created, epoch, recorded⟩, unshared⟩

theorem publishPlugin_wp (numbered : base.Numbered)
    (adding : Adding base (singleLink partialName output) before.disk)
    (named : pluginPartialName partialName = true)
    (absent : base.root.lookup partialName = none)
    (copied : before.disk.files output = ⟨source, .privateFile, some self⟩)
    (unshared : ∀ name ref, base.entry (.top name) = some ref →
      ref.inode ≠ output.inode) :
    Program.wp (alone self (undisturbed pluginDirectory))
      (publishPlugin pluginDirectory filename partialName)
      (fun result after => PluginAttempt self (before.pidOf self) filename source
        base result after.disk) before := by
  have linked : before.disk.entry (.top partialName) = some output :=
    adding.entry_extra (Function.update_self ..)
  have alone' : ∀ name, name ≠ partialName →
      singleLink partialName output name = none :=
    fun name different => Function.update_of_ne different _ _
  have early : output.index < before.disk.nextFile :=
    (adding.newer partialName output (Function.update_self ..)).2
  simp only [publishPlugin, fileIdentityAt]
  rw [Program.wp_bind]
  refine Program.wp_mono fileIdentity_reads ?_
  rintro found identified ⟨sameDisk, samePids, told⟩
  cases found with
  | none =>
      refine undo_attempted (sameDisk ▸ adding) (fun name different _ =>
        alone' name different) absent (Or.inl rfl) ?_
      intro ref linked matching
      exact numbered (.top filename) ref linked (congrArg Prod.snd matching)
  | some identity =>
      obtain ⟨volume, file⟩ := identity
      have same := told _ output rfl linked
      rw [adding.volume] at same
      cases same
      simp only [Program.perform_bind]
      intro _ noted answeredNote
      have notedDisk := (World.exec_disk rfl answeredNote.1).trans sameDisk
      have notedPids :=
        (World.exec_frame answeredNote.1).2.1.trans samePids
      rw [Program.wp_bind]
      refine Program.wp_mono (markerAttempts_wp (notedDisk ▸ adding)
        (Or.inl rfl)) ?_
      rintro ⟨marked, marker⟩ attempted ⟨made, undone, files⟩
      have content : attempted.disk.files output =
          ⟨source, .privateFile, some self⟩ := by
        rw [files output (notedDisk ▸ early), notedDisk]
        exact copied
      cases marked with
      | false =>
          obtain ⟨cleared, unused⟩ := undone rfl
          refine undo_attempted cleared (fun name different _ =>
            alone' name different) absent (unused.imp id And.right) ?_
          intro ref base' matching
          exact unshared filename ref base' (congrArg Prod.snd matching)
      | true =>
          obtain ⟨markerNamed, unseen, markerless, markerRef, created, epoch,
            holds, text⟩ := made rfl
          have different : marker ≠ partialName := by
            rintro rfl
            rw [singleLink, Function.update_self] at unseen
            cases unseen
          have only : ∀ name, name ≠ partialName → name ≠ marker →
              Function.update (singleLink partialName output) marker
                (some markerRef) name = none := by
            intro name notAnchor notMarker
            rw [Function.update_of_ne notMarker]
            exact alone' name notAnchor
          simp only [if_true]
          intro answer after answered
          rcases World.exec_link answered.1 with ⟨rfl, kept⟩ |
            ⟨ref, rfl, linked', vacant, kept⟩
          · refine undo_attempted (kept ▸ holds) ?_ absent
              (Or.inr markerless) ?_
            · intro name notAnchor notMarker
              refine only name notAnchor (notMarker.resolve_left ?_)
              rintro rfl
              exact absurd markerNamed (by decide)
            · intro ref base' matching
              exact unshared filename ref base' (congrArg Prod.snd matching)
          · rw [notedPids] at text
            refine ⟨output, markerRef, ?_⟩
            rw [kept]
            exact .of_link adding holds different named markerNamed content
              epoch text unshared vacant linked'

theorem copyPlugin_wp {interruptions : Nat}
    (numbered : before.disk.Numbered) :
    Program.wp (alone self (undisturbed pluginDirectory))
      (copyPlugin interruptions pluginDirectory filename source)
      (fun result after => PluginAttempt self (before.pidOf self) filename source
        before.disk result after.disk) before := by
  have deletes := ensures_deletions pluginDirectory
  simp only [copyPlugin, Program.perform_bind]
  split
  · exact Adding.refl before.disk
  intro directory first answeredDirectory input second answeredInput made
    third answered
  have same : second.disk = before.disk :=
    (World.exec_disk rfl answeredInput.1).trans
      (World.exec_disk rfl answeredDirectory.1)
  have pids : third.pidOf = before.pidOf :=
    ((World.exec_frame answered.1).2.1.trans
      (World.exec_frame answeredInput.1).2.1).trans
        (World.exec_frame answeredDirectory.1).2.1
  rcases World.exec_mkstemp answered.1 with ⟨rfl, kept⟩ |
    ⟨partialName, output, rfl, named, absent, fresh, kept⟩
  · change Adding before.disk (fun _ => none) third.disk
    rw [kept, same]
    exact Adding.refl before.disk
  rw [same] at absent fresh kept
  have adding : Adding before.disk (singleLink partialName output)
      third.disk := by
    rw [kept]
    exact (Adding.refl before.disk).create absent fresh self
  have newer : before.disk.nextFile ≤ output.index := Nat.le_of_eq fresh.1.symm
  have only : ∀ name, name ≠ partialName →
      singleLink partialName output name = none :=
    fun name different => Function.update_of_ne different _ _
  have unmatched : ∀ ref, before.disk.entry (.top filename) = some ref →
      (before.disk.volume, ref.inode) ≠ (0, 0) :=
    fun ref linked matching => numbered (.top filename) ref linked
      (congrArg Prod.snd matching)
  dsimp only
  split
  · refine wp_quiet rfl fun closed fourth _ closedDisk => ?_
    intro answer after answered
    have removed := unlink_adding deletes (closedDisk ▸ adding) absent answered
    rw [singleLink, Function.update_idem,
      Function.update_eq_self_iff.mpr rfl] at removed
    exact removed
  · rw [Program.wp_bind]
    have keepsPids : Program.wp (alone self (undisturbed pluginDirectory))
        (copySource interruptions output source)
        (fun _ after => after.pidOf = before.pidOf) third :=
      Program.wp_of_preserved (fun _ _ _ _ kept answered =>
        (World.exec_frame answered.1).2.1.trans kept) _ pids
    refine Program.wp_mono (Program.wp_and copySource_wp keepsPids) ?_
    rintro ok copiedWorld ⟨⟨written, disk, complete⟩, copiedPids⟩
    have copied : Adding before.disk (singleLink partialName output)
        copiedWorld.disk := by
      rw [disk]
      exact adding.append newer written
    cases ok with
    | false =>
        refine undo_attempted copied (fun name different _ =>
          only name different) absent (Or.inl rfl) unmatched
    | true =>
        simp only [if_true]
        rw [← copiedPids]
        refine publishPlugin_wp numbered copied named absent ?_ ?_
        · rw [disk, kept, complete rfl]
          simp [Disk.append, Disk.setFile, Disk.create, Disk.attach]
        · intro name ref linked shared
          exact fresh.2.2 (shared ▸ mem_inodes_of_entry linked)

/-- Since `before` nothing but the entry `destination` was changed. -/
structure Touched (destination : Name) (before after : Disk) : Prop where
  root : ∀ name, name ≠ destination →
    after.root.lookup name = before.root.lookup name
  directories : ∀ id, id < before.nextDirectory →
    after.directories id = before.directories id
  files : ∀ ref, ref.index < before.nextFile →
    after.files ref = before.files ref
  volume : after.volume = before.volume

/-- The directory `base` again, with what took the place of `output` at
`destination`. -/
structure Restored (base later : Disk) (destination : Name)
    (output : FileRef) (disk : Disk) : Prop where
  others : ∀ name, name ≠ destination →
    disk.root.lookup name = base.root.lookup name
  removed : later.root.lookup destination = some (.file output) →
    disk.root.lookup destination = base.root.lookup destination
  kept : later.root.lookup destination ≠ some (.file output) →
    disk.root.lookup destination = later.root.lookup destination
  directories : ∀ id, id < base.nextDirectory →
    disk.directories id = base.directories id
  files : ∀ ref, ref.index < base.nextFile → disk.files ref = base.files ref

/-- A file with the expected identity goes when nothing is refused. -/
theorem removeSame_matching {accepts : Mode → Bool} {identity : Nat × Nat}
    {name : Name}
    (identified : before.disk.Identified accepts name identity) :
    Program.wp (alone self (refusing fun _ => False))
      (removeSame accepts identity name)
      (fun _ after => after.disk = before.disk.detach (.top name)) before := by
  simp only [removeSame]
  rw [Program.wp_bind]
  refine Program.wp_mono fileIdentity_wp ?_
  rintro found middle ⟨disk, -, told⟩
  rw [if_pos (told identity identified)]
  intro answer after answered
  rcases World.exec_unlink answered.1 with ⟨refused, -⟩ |
    ⟨slot, -, resolved, -, same⟩
  · have absent : middle.disk.entry (.top name) = none :=
      (answered.2 refused).resolve_left id
    obtain ⟨ref, linked, -⟩ := identified
    rw [disk, linked] at absent
    cases absent
  · cases resolved
    rw [← disk]
    exact same

theorem Disk.lookup_detach_top (disk : Disk) (gone name : Name) :
    (disk.detach (.top gone)).root.lookup name =
      if name = gone then none else disk.root.lookup name := by
  by_cases same : name = gone
  · subst same
    simp [Disk.detach]
  · rw [if_neg same]
    exact AList.lookup_erase_ne same

theorem Disk.entry_top_iff {disk : Disk} {name : Name} {ref : FileRef} :
    disk.entry (.top name) = some ref ↔
      disk.root.lookup name = some (.file ref) := by
  constructor
  · intro linked
    simp only [Disk.entry] at linked
    split at linked
    · cases linked
      assumption
    · cases linked
  · intro found
    rw [Disk.entry, found]

variable {owner : Process} {pid : Nat} {plugin : Plugin}
  {marker : FileRef} {published : Disk}

/-- The directory without the entries of the plugin, but with whatever took
the place of its destination. -/
def Plugin.withdraw (plugin : Plugin) (output : FileRef) (disk : Disk) :
    Disk :=
  ((if disk.root.lookup plugin.destination = some (.file output) then
      disk.detach (.top plugin.destination)
    else disk).detach (.top plugin.anchor)).detach (.top plugin.marker)

theorem PublishedPlugin.links_anchor :
    plugin.links output marker plugin.anchor = some output := by
  simp [Plugin.links]

theorem PublishedPlugin.links_marker
    (made : PublishedPlugin owner pid filename source base plugin output marker
      published) :
    plugin.links output marker plugin.marker = some marker := by
  simp [Plugin.links, made.distinct.2.2, Ne.symm made.distinct.2.1]

/-- What a release relies on: the hidden entries of the plugin lead where they
led. -/
structure Plugin.Kept (plugin : Plugin) (output marker : FileRef)
    (disk : Disk) : Prop where
  anchor : disk.entry (.top plugin.anchor) = some output
  marker : disk.entry (.top plugin.marker) = some marker
  regular : (disk.files output).mode.regular = true
  volume : disk.volume = plugin.volumeId

theorem PublishedPlugin.kept {later : Disk}
    (made : PublishedPlugin owner pid filename source base plugin output marker
      published)
    (touched : Touched plugin.destination published later) :
    plugin.Kept output marker later where
  anchor := by
    rw [Disk.entry_top_iff, touched.root _ (Ne.symm made.distinct.1),
      made.adding.root, PublishedPlugin.links_anchor]
  marker := by
    rw [Disk.entry_top_iff, touched.root _ (Ne.symm made.distinct.2.1),
      made.adding.root, made.links_marker]
  regular := by
    have early := (made.adding.newer _ _ PublishedPlugin.links_anchor).2
    rw [touched.files output early, made.copied]
    rfl
  volume := by
    rw [touched.volume]
    exact (congrArg Prod.fst made.identity).symm

theorem releasePlugin_withdraws
    (made : PublishedPlugin owner pid filename source base plugin output marker
      published)
    (named : filename ≠ [])
    (kept : plugin.Kept output marker before.disk)
    (replaced : ∀ ref, before.disk.entry (.top plugin.destination) = some ref →
      ref ≠ output → ref.inode ≠ plugin.fileId) :
    Program.wp (alone self (refusing fun _ => False)) (releasePlugin plugin)
      (fun _ after => after.disk = plugin.withdraw output before.disk)
      before := by
  obtain ⟨notAnchor, notMarker, different⟩ := made.distinct
  have identity : (before.disk.volume, output.inode) =
      (plugin.volumeId, plugin.fileId) := by
    have inode : plugin.fileId = output.inode :=
      congrArg Prod.snd made.identity
    rw [kept.volume, inode]
  have destinationStep : Program.wp (alone self (refusing fun _ => False))
      (removeSame Mode.regular (plugin.volumeId, plugin.fileId)
        plugin.destination)
      (fun _ after => after.disk =
        if before.disk.root.lookup plugin.destination = some (.file output)
          then before.disk.detach (.top plugin.destination)
        else before.disk) before := by
    split
    · rename_i found
      exact removeSame_matching ⟨output, Disk.entry_top_iff.mpr found,
        kept.regular, identity⟩
    · rename_i missing
      refine removeSame_other fun ref linked matching => ?_
      refine replaced ref linked ?_ (congrArg Prod.snd matching)
      rintro rfl
      exact missing (Disk.entry_top_iff.mp linked)
  have anchorSet : plugin.anchor ≠ [] := by
    intro empty
    have anchor := made.anchor
    rw [empty] at anchor
    exact absurd anchor (by decide)
  have markerSet : plugin.marker ≠ [] := by
    intro empty
    have marked := made.marked
    rw [empty] at marked
    exact absurd marked (by decide)
  simp only [releasePlugin]
  rw [if_pos (made.destination ▸ named), Program.wp_bind]
  refine Program.wp_mono destinationStep ?_
  intro _ first firstDisk
  have elsewhere : ∀ name, name ≠ plugin.destination →
      first.disk.entry (.top name) = before.disk.entry (.top name) := by
    intro name other
    rw [firstDisk]
    split
    · rw [Disk.entry_detach, if_neg (by simpa using other)]
    · rfl
  have unchanged : first.disk.files = before.disk.files ∧
      first.disk.volume = before.disk.volume := by
    rw [firstDisk]
    split
    · exact ⟨rfl, rfl⟩
    · exact ⟨rfl, rfl⟩
  have anchorFound : first.disk.entry (.top plugin.anchor) = some output :=
    (elsewhere _ (Ne.symm notAnchor)).trans kept.anchor
  rw [if_pos anchorSet, Program.wp_bind]
  refine Program.wp_mono (removeSame_matching ⟨output, anchorFound,
    unchanged.1 ▸ kept.regular, unchanged.2 ▸ identity⟩) ?_
  intro _ second secondDisk
  rw [if_pos markerSet]
  intro answer third answered
  rcases World.exec_unlink answered.1 with ⟨refused, -⟩ |
    ⟨slot, -, resolved, -, same⟩
  · have absent : second.disk.entry (.top plugin.marker) = none :=
      (answered.2 refused).resolve_left id
    have found : second.disk.entry (.top plugin.marker) = some marker := by
      rw [secondDisk, Disk.entry_detach, if_neg (by simpa using different),
        elsewhere _ (Ne.symm notMarker), kept.marker]
    rw [found] at absent
    cases absent
  · cases resolved
    change third.disk = _
    rw [same, secondDisk, firstDisk]
    rfl

theorem PublishedPlugin.withdraw_restored {later : Disk}
    (made : PublishedPlugin owner pid filename source base plugin output marker
      published)
    (touched : Touched plugin.destination published later) :
    Restored base later plugin.destination output
      (plugin.withdraw output later) := by
  obtain ⟨notAnchor, notMarker, different⟩ := made.distinct
  have lookups : ∀ name, (plugin.withdraw output later).root.lookup name =
      if name = plugin.marker then none
      else if name = plugin.anchor then none
      else if name = plugin.destination ∧
          later.root.lookup plugin.destination = some (.file output) then none
      else later.root.lookup name := by
    intro name
    rw [Plugin.withdraw, Disk.lookup_detach_top, Disk.lookup_detach_top]
    split
    · rfl
    split
    · rfl
    split
    · rename_i found
      simp [Disk.lookup_detach_top, found]
    · rename_i missing
      simp [missing]
  have untouched : (plugin.withdraw output later).files = later.files ∧
      (plugin.withdraw output later).directories = later.directories := by
    rw [Plugin.withdraw]
    split
    · exact ⟨rfl, rfl⟩
    · exact ⟨rfl, rfl⟩
  refine ⟨?_, ?_, ?_, ?_, ?_⟩
  · intro name other
    rw [lookups]
    split
    · rename_i same
      subst same
      exact (made.adding.absent _ _ made.links_marker).symm
    rename_i unmarked
    split
    · rename_i same
      subst same
      exact (made.adding.absent _ _ PublishedPlugin.links_anchor).symm
    rename_i unanchored
    rw [if_neg (fun both => other both.1), touched.root name other,
      made.adding.root]
    simp [Plugin.links, other, unmarked, unanchored]
  · intro found
    rw [lookups, if_neg notMarker, if_neg notAnchor, if_pos ⟨rfl, found⟩]
    exact (made.adding.absent plugin.destination output
      (by simp [Plugin.links])).symm
  · intro missing
    rw [lookups, if_neg notMarker, if_neg notAnchor,
      if_neg fun both => missing both.2]
  · intro id older
    rw [untouched.2, touched.directories id
      (made.adding.nextDirectory ▸ older), made.adding.directories]
  · intro ref older
    rw [untouched.1, touched.files ref
      (Nat.lt_of_lt_of_le older made.adding.later), made.adding.files ref older]

private theorem getD_of_getElem? {name : Name} {position : Nat}
    {byte : UInt8} (found : name[position]? = some byte) :
    name.getD position 0 = byte := by
  rw [List.getD_eq_getElem?_getD, found]
  rfl

theorem jarName_of_filenameOk {name : Name}
    (accepted : filenameOk (some name) = true) : jarName name = true := by
  simp only [filenameOk] at accepted
  split at accepted
  · cases accepted
  rename_i sized
  split at accepted
  · cases accepted
  split at accepted
  · cases accepted
  rename_i clean
  simp only [decide_eq_true_eq] at accepted
  obtain ⟨-, -, -, dot, first, second, third⟩ := accepted
  have plain : ∀ byte ∈ ascii Protocol.forbiddenInFilename, byte ∉ name := by
    intro byte forbidden member
    exact clean (List.any_eq_true.mpr ⟨byte, member, by simpa using forbidden⟩)
  simp only [jarName, Bool.decide_and, Bool.and_eq_true, decide_eq_true_eq]
  exact ⟨by omega, plain 0x2F (by decide), plain 0x5C (by decide),
    getD_of_getElem? dot,
    by simpa using first.imp getD_of_getElem? getD_of_getElem?,
    by simpa using second.imp getD_of_getElem? getD_of_getElem?,
    by simpa using third.imp getD_of_getElem? getD_of_getElem?⟩

theorem markableName_of_parsed {bytes : Bytes} {m : Manifest}
    (parsed : parseManifest bytes = some m) : MarkableName m.filename := by
  obtain ⟨fields, valid, -, rfl⟩ := parseManifest_eq_some_iff.mp parsed
  obtain ⟨text, plain⟩ := valid.originalFilename
  refine ⟨jarName_of_filenameOk ((filenameOk_iff text.length_le).mpr plain),
    text.length_le, ?_⟩
  rintro byte member rfl
  exact IsText.noNul text member

/-- Inode numbers tell the files of the shared directory apart. -/
def Disk.DistinctInodes (disk : Disk) : Prop :=
  ∀ first second ref other, disk.entry (.top first) = some ref →
    disk.entry (.top second) = some other → ref.inode = other.inode →
      ref = other

/-- The marker of a published plugin reads back as the identity and the name
it was written for. -/
theorem PublishedPlugin.marker_reads
    (made : PublishedPlugin owner pid filename source base plugin output marker
      published)
    (markable : MarkableName filename) (small : pid < 2 ^ 63)
    (narrowVolume : plugin.volumeId < 2 ^ 64)
    (narrowFile : plugin.fileId < 2 ^ 64) :
    pluginRecord (published.files marker).content =
      some ((pid : Int), ⟨plugin.volumeId, plugin.fileId, filename⟩) := by
  obtain ⟨created, epoch, text⟩ := made.recorded
  rw [text]
  exact pluginRecord_pluginText small epoch narrowVolume narrowFile markable

/-- A release takes the three entries away again and keeps what replaced the
destination. -/
theorem releasePlugin_restores
    (made : PublishedPlugin owner pid filename source base plugin output marker
      published)
    (named : filename ≠ [])
    (touched : Touched plugin.destination published before.disk)
    (distinct : before.disk.DistinctInodes) :
    Program.wp (alone self (refusing fun _ => False)) (releasePlugin plugin)
      (fun _ after => Restored base before.disk plugin.destination output
        after.disk) before := by
  have kept := made.kept touched
  refine Program.wp_mono (releasePlugin_withdraws made named kept ?_) ?_
  · intro ref linked different same
    have identity := congrArg Prod.snd made.identity
    exact different (distinct _ _ _ _ linked kept.anchor
      (same.trans identity))
  · intro _ after disk
    rw [disk]
    exact made.withdraw_restored touched

/-- Where deletions succeed, drawn marker names are free and nobody interferes,
`materializePlugin` leaves the directory its cleanup left, and when it succeeds
three entries more, which a release takes away again. -/
theorem materializePlugin_allOrNothing (self : Process) (interruptions : Nat)
    (pluginDirectory source bytes : Bytes) (m : Manifest)
    (before after : World) (result : Option Plugin)
    (parsed : parseManifest bytes = some m)
    (wellFormed : before.disk.WellFormed) (numbered : before.disk.Numbered)
    (run : Program.Runs (alone self (undisturbed pluginDirectory))
      (materializePlugin interruptions pluginDirectory m.filename source)
      before result after) :
    ∃ started left, started.disk = before.disk ∧
      Program.Runs (alone self (undisturbed pluginDirectory)) cleanupPlugins
        started () left ∧
      (result = none → Settled left.disk after.disk ∧
        after.disk.contents = left.disk.contents) ∧
      ∀ plugin, result = some plugin → ∃ output marker,
        PublishedPlugin self (before.pidOf self) m.filename source left.disk
          plugin output marker after.disk ∧
        (before.pidOf self < 2 ^ 63 → plugin.volumeId < 2 ^ 64 →
          plugin.fileId < 2 ^ 64 →
            pluginRecord (after.disk.files marker).content =
              some ((before.pidOf self : Int),
                ⟨plugin.volumeId, plugin.fileId, m.filename⟩)) ∧
        ∀ later final, Touched plugin.destination after.disk later.disk →
          later.disk.DistinctInodes →
          Program.Runs (alone self (refusing fun _ => False))
            (releasePlugin plugin) later () final →
              Restored left.disk later.disk plugin.destination output
                final.disk := by
  have markable := markableName_of_parsed parsed
  simp only [materializePlugin, Program.perform_bind] at run
  obtain ⟨accepted, checked, answered, rest⟩ := run
  have same := World.exec_disk rfl answered.1
  have pids := (World.exec_frame answered.1).2.1
  cases accepted with
  | false =>
      obtain ⟨rfl, rfl⟩ := rest
      refine ⟨before, after, rfl, ⟨false, after, answered, rfl, rfl⟩,
        fun _ => ⟨Settled.refl _, rfl⟩, by simp⟩
  | true =>
      simp only [Bool.not_true, Bool.false_eq_true, if_false] at rest
      obtain ⟨_, left, cleanup, attempt⟩ := Program.Runs.bind_iff.mp rest
      have sound : left.disk.WellFormed := Program.wp_iff_runs.mp
        (wp_wellFormed (same ▸ wellFormed)) _ _ cleanup
      have counted : left.disk.Numbered := Program.wp_iff_runs.mp
        (wp_numbered (same ▸ numbered)) _ _ cleanup
      have pid : left.pidOf = before.pidOf :=
        (Program.wp_iff_runs.mp (wp_pidOf _ checked) _ _ cleanup).trans pids
      have outcome := Program.wp_iff_runs.mp (copyPlugin_wp counted) _ _
        attempt
      refine ⟨checked, left, same, cleanup, ?_, ?_⟩
      · rintro rfl
        exact ⟨outcome.settled, outcome.settled.contents_eq sound⟩
      · rintro plugin rfl
        obtain ⟨output, marker, made⟩ := outcome
        rw [pid] at made
        refine ⟨output, marker, made, made.marker_reads markable, ?_⟩
        intro later final touched distinct releasing
        exact Program.wp_iff_runs.mp (releasePlugin_restores made
          markable.ne_nil touched distinct) _ _ releasing

instance (pluginDirectory : Bytes) (call : Call) (world : World)
    (answer : Answer call) :
    Decidable (drawsFresh pluginDirectory call world answer) := by
  cases call <;> (unfold drawsFresh; infer_instance)

/-- The obliging machine as long as it draws free names. -/
def drawingMachine (pluginDirectory : Bytes) (actor : Process) (call : Call)
    (world : World) : Option (Answer call × World) :=
  if drawsFresh pluginDirectory call world (world.obliging actor call) then
    machine actor call world
  else none

theorem undisturbed_of_drawingMachine (call : Call) (before : World)
    (answer : Answer call) (after : World)
    (answered : drawingMachine pluginDirectory self call before =
      some (answer, after)) :
    alone self (undisturbed pluginDirectory) call before answer after := by
  unfold drawingMachine at answered
  split at answered
  · rename_i fresh
    obtain ⟨world, done, same⟩ := Option.map_eq_some_iff.mp answered
    cases same
    exact ⟨done, deletionsSucceed_obliging self call before, fresh⟩
  · cases answered

theorem materializePlugin_allOrNothing_small : ∃ plugin after,
    Program.Runs (alone 0 (undisturbed [0x64]))
      (materializePlugin 1 [0x64] (ascii "a.jar".toList) [1, 2, 3])
      World.initial (some plugin) after ∧
    ∃ left output marker, PublishedPlugin 0 0 (ascii "a.jar".toList) [1, 2, 3]
      left plugin output marker after.disk := by
  have outcome : (Program.follow (drawingMachine [0x64] 0)
      (materializePlugin 1 [0x64] (ascii "a.jar".toList) [1, 2, 3])
      World.initial).map (·.1.isSome) = some true := by
    decide +kernel
  have filename : (parseManifest smallManifest.layout).map (·.filename) =
      some (ascii "a.jar".toList) := by
    decide +kernel
  obtain ⟨⟨result, after⟩, followed, published⟩ :=
    Option.map_eq_some_iff.mp outcome
  obtain ⟨m, parsed, named⟩ := Option.map_eq_some_iff.mp filename
  obtain ⟨plugin, rfl⟩ := Option.isSome_iff_exists.mp published
  have run : Program.Runs (alone 0 (undisturbed [0x64])) _ _ _ _ :=
    Program.runs_of_follow undisturbed_of_drawingMachine followed
  have numbered : World.initial.disk.Numbered := by
    intro slot ref linked
    cases slot <;> cases linked
  rw [← named] at run
  obtain ⟨started, left, -, -, -, adds⟩ := materializePlugin_allOrNothing 0 1
    [0x64] [1, 2, 3] smallManifest.layout m World.initial after (some plugin)
    parsed World.initial_wellFormed numbered run
  obtain ⟨output, marker, made, -⟩ := adds plugin rfl
  rw [named] at run made
  exact ⟨plugin, after, run, left.disk, output, marker, made⟩

end RymgaLoader.Native
