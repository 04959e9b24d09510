import RymgaLoader.Native.Acquire
import RymgaLoader.Native.TempDirectory

/-!
# Downloading an artifact alone

What `download_artifact` and `rymga_loader_artifact_release` do when nobody
else touches the shared directory.  Either the verified file is published
next to its marker, or nothing is returned and, where deletions succeed,
nothing is left behind.
-/

namespace RymgaLoader.Native

open Disk

section

variable {self : Process}
  {allowed : (call : Call) → World → Answer call → Prop}

/-- The download after it took `bytes`. -/
def Download.took (d : Download) (bytes : Bytes) : Download :=
  { d with hash := d.hash ++ bytes, written := d.written + bytes.length }

@[simp] theorem Download.took_nil (d : Download) : d.took [] = d := by
  simp [Download.took]

@[simp] theorem Download.took_took (d : Download) (first second : Bytes) :
    (d.took first).took second = d.took (first ++ second) := by
  simp [Download.took, add_assoc]

/-- Room for `length` more bytes. -/
def Download.Room (d : Download) (length : Nat) : Prop :=
  (length : Int) ≤ d.expected - d.written ∧
    d.expected - d.written < sizeRange

theorem transferLength_one {count : Nat} :
    transferLength 1 count = if count < sizeRange then some count else none := by
  unfold transferLength
  by_cases small : count < sizeRange
  · rw [if_pos small, if_neg, sizeMul, one_mul, Nat.mod_eq_of_lt small]
    rintro ⟨positive, large⟩
    have : 1 ≤ (sizeRange - 1) / count :=
      (Nat.one_le_div_iff (by omega)).mpr (by omega)
    omega
  · rw [if_neg small, if_pos]
    have : 0 < sizeRange := by decide
    refine ⟨by omega, ?_⟩
    rw [Nat.div_eq_of_lt (by omega)]
    exact Nat.zero_lt_one

/-- What the download callback did with one chunk. -/
structure ChunkReceived
    (allowed : (call : Call) → World → Answer call → Prop) (file : FileRef)
    (d : Download) (chunk : Bytes) (before : World)
    (outcome : Nat × Download) (after : World) : Prop where
  disk : ∃ content, after.disk = before.disk.append file content ∧
    (outcome.1 = chunk.length → content = chunk ∧ outcome.2 = d.took chunk)
  succeeds : Ensures allowed callsSucceed → d.Room chunk.length →
    outcome.1 = chunk.length

theorem receiveFile_wp (file : FileRef) (d : Download) (chunk : Bytes)
    (before : World) :
    Program.wp (alone self allowed)
      (receiveFile file d chunk 1 chunk.length)
      (ChunkReceived allowed file d chunk before) before := by
  rw [receiveFile, transferLength_one]
  by_cases small : chunk.length < sizeRange
  · rw [if_pos small]
    dsimp only
    by_cases full : chunk.length >
        ((d.expected - d.written) % sizeRange).toNat
    · rw [if_pos full]
      refine ⟨⟨[], (append_nil _ _).symm, ?_⟩, ?_⟩
      · intro taken
        dsimp only at taken
        omega
      · rintro - ⟨fits, bounded⟩
        rw [Int.emod_eq_of_lt (by omega) (by exact_mod_cast bounded)] at full
        omega
    · rw [if_neg full, List.take_length, Program.wp_bind]
      refine Program.wp_mono (writeAll_wp before) ?_
      rintro written after ⟨⟨content, disk, complete⟩, nothing, succeeds⟩
      cases written with
      | true =>
          refine ⟨⟨content, disk, fun _ => ⟨complete rfl, ?_⟩⟩, fun _ _ => rfl⟩
          rfl
      | false =>
          refine ⟨⟨content, disk, ?_⟩, fun ensures => ?_⟩
          · intro taken
            have empty : chunk = [] := List.length_eq_zero_iff.mp taken.symm
            exact absurd (nothing empty) (by simp)
          · exact absurd (succeeds ensures) (by simp)
  · rw [if_neg small]
    refine ⟨⟨[], (append_nil _ _).symm, ?_⟩, ?_⟩
    · intro taken
      have : 0 < sizeRange := by decide
      dsimp only at taken
      omega
    · rintro - ⟨fits, bounded⟩
      omega

/-- What a whole transfer did. -/
structure FileReceived
    (allowed : (call : Call) → World → Answer call → Prop) (file : FileRef)
    (d : Download) (chunks : List Bytes) (before : World)
    (outcome : Bool × Download) (after : World) : Prop where
  disk : ∃ content, after.disk = before.disk.append file content ∧
    (outcome.1 = true → content = chunks.flatten ∧
      outcome.2 = d.took chunks.flatten)
  succeeds : Ensures allowed callsSucceed → d.Room chunks.flatten.length →
    outcome.1 = true

theorem deliver_receiveFile_wp (file : FileRef) (d : Download)
    (chunks : List Bytes) (before : World) :
    Program.wp (alone self allowed)
      (deliver (fun d chunk => receiveFile file d chunk 1 chunk.length) d
        chunks)
      (FileReceived allowed file d chunks before) before := by
  induction chunks generalizing d before with
  | nil =>
      exact ⟨⟨[], (append_nil _ _).symm, fun _ => ⟨rfl, by simp⟩⟩,
        fun _ _ => rfl⟩
  | cons chunk chunks ih =>
      rw [deliver, Program.wp_bind]
      refine Program.wp_mono (receiveFile_wp file d chunk before) ?_
      rintro ⟨taken, next⟩ between ⟨⟨content, disk, complete⟩, succeeds⟩
      dsimp only at complete succeeds ⊢
      by_cases all : taken = chunk.length
      · rw [if_pos all]
        obtain ⟨rfl, rfl⟩ := complete all
        refine Program.wp_mono (ih (d.took content) between) ?_
        rintro ⟨delivered, final⟩ after ⟨⟨rest, disk', complete'⟩, succeeds'⟩
        refine ⟨⟨content ++ rest, ?_, ?_⟩, ?_⟩
        · rw [disk', disk, append_append]
        · intro done
          obtain ⟨rfl, same⟩ := complete' done
          exact ⟨rfl, by simpa using same⟩
        · rintro ensures ⟨fits, bounded⟩
          apply succeeds' ensures
          simp only [List.flatten_cons, List.length_append] at fits
          refine ⟨?_, ?_⟩ <;> simp only [Download.took] <;> omega
      · rw [if_neg all]
        refine ⟨⟨content, disk, by simp⟩, ?_⟩
        rintro ensures ⟨fits, bounded⟩
        refine absurd (succeeds ensures ⟨?_, bounded⟩) all
        simp only [List.flatten_cons, List.length_append] at fits
        omega

/-- What the manifest promises about the artifact. -/
def Promised (sodium : Sodium) (m : Manifest) (content : Bytes) : Prop :=
  (content.length : Int) = m.artifactSize.toInt ∧
    sodium.sha256 content = m.hash

/-- The reply of a server that delivers the promised artifact. -/
def DeliversPromised (sodium : Sodium) (m : Manifest) (reply : Reply) : Prop :=
  reply.transferred = true ∧ 200 ≤ reply.status ∧ reply.status < 300 ∧
    Promised sodium m reply.chunks.flatten

/-- The directory `name` was added, with its complete marker and the promised
artifact in it. -/
structure Published (owner : Process) (sodium : Sodium) (pid : Nat)
    (m : Manifest) (base : Disk) (name : Name) (disk : Disk) : Prop where
  intro ::
  files : ∃ marker file content, MarkerWritten owner pid name marker disk ∧
    disk.files file = ⟨content, .privateFile, some owner⟩ ∧
    Promised sodium m content ∧
    Holding base name (alongside marker m.filename file) disk

/-- What the part of `download_artifact` before its cleanup label did. -/
structure FetchAttempt (owner : Process)
    (allowed : (call : Call) → World → Answer call → Prop) (sodium : Sodium)
    (pid : Nat) (m : Manifest) (reply : Reply) (base : Disk) (name : Name)
    (fetched : Fetched) (after : World) : Prop where
  published : fetched.result = .ok →
    fetched.artifact = some ⟨some name, some (name, m.filename)⟩ ∧
      Published owner sodium pid m base name after.disk
  failed : fetched.result ≠ .ok → fetched.artifact = none ∧
    (Ensures allowed deletionsSucceed → ∃ entries,
      Holding base name entries after.disk ∧
        ∀ candidate, candidate ≠ ownerMarker → candidate ≠ artifactPart →
          (fetched.finalCreated = true → candidate ≠ m.filename) →
            entries candidate = none)
  succeeds : Ensures allowed callsSucceed → DeliversPromised sodium m reply →
    fetched.result = .ok

variable {base : Disk} {name : Name} {entries : Name → Option FileRef}
  {before after : World} {sodium : Sodium} {q : Request} {m : Manifest}
  {marker file : FileRef} {pid : Nat} {reply : Reply}

theorem alongside_of_ne {added candidate : Name}
    (notMarker : candidate ≠ ownerMarker) (notAdded : candidate ≠ added) :
    alongside marker added file candidate = none := by
  rw [alongside, Function.update_of_ne notAdded, markerOnly,
    Function.update_of_ne notMarker]

/-- Leaving early with the partial file in place. -/
private theorem FetchAttempt.leave {result : Result}
    (holding : Holding base name (alongside marker artifactPart file)
      after.disk)
    (failed : result ≠ .ok)
    (fails : Ensures allowed callsSucceed →
      ¬DeliversPromised sodium m reply) :
    FetchAttempt self allowed sodium pid m reply base name
      ⟨result, false, none⟩ after where
  published ok := absurd ok failed
  failed _ := ⟨rfl, fun _ => ⟨_, holding, fun _ notMarker notPart _ =>
    alongside_of_ne notMarker notPart⟩⟩
  succeeds ensures delivers := absurd delivers (fails ensures)

/-- Leaving with the file under its final name. -/
private theorem FetchAttempt.leaveFinal {result : Result}
    (holding : Ensures allowed deletionsSucceed → ∃ entries,
      Holding base name entries after.disk ∧
        ∀ candidate, candidate ≠ ownerMarker → candidate ≠ m.filename →
          entries candidate = none)
    (failed : result ≠ .ok) (fails : ¬Ensures allowed callsSucceed) :
    FetchAttempt self allowed sodium pid m reply base name
      ⟨result, true, none⟩ after where
  published ok := absurd ok failed
  failed _ := by
    refine ⟨rfl, fun deletes => ?_⟩
    obtain ⟨entries, holds, cleared⟩ := holding deletes
    exact ⟨entries, holds, fun candidate notMarker _ notFinal =>
      cleared candidate notMarker (notFinal rfl)⟩
  succeeds ensures := absurd ensures fails

/-- `rymga_loader_artifact_release` of a handle whose paths were not both
duplicated. -/
private theorem releaseIncomplete_wp {directoryCopied pathCopied : Bool}
    (incomplete : (directoryCopied && pathCopied) = false)
    (fits : MarkerFits q.runtimeDirectory name)
    (visible : m.filename ≠ ownerMarker)
    (holding : Holding base name (alongside marker m.filename file)
      before.disk) (deletes : Ensures allowed deletionsSucceed) :
    Program.wp (alone self allowed) (artifactRelease q.runtimeDirectory
        ⟨if directoryCopied then some name else none,
          if pathCopied then some (name, m.filename) else none⟩)
      (fun _ after => ∃ entries, Holding base name entries after.disk ∧
        ∀ candidate, candidate ≠ ownerMarker → candidate ≠ m.filename →
          entries candidate = none) before := by
  cases directoryCopied with
  | false =>
      cases pathCopied with
      | false =>
          exact ⟨_, holding, fun _ => alongside_of_ne⟩
      | true =>
          intro answer after answered
          refine ⟨_, unlink_holding deletes holding answered, ?_⟩
          intro candidate notMarker notFinal
          rw [Function.update_of_ne notFinal]
          exact alongside_of_ne notMarker notFinal
  | true =>
      cases pathCopied with
      | false =>
          have present : alongside marker m.filename file m.filename =
              some file := by
            rw [alongside, Function.update_self]
          refine Program.wp_mono (removeDirectory_occupied deletes fits
            holding visible present) ?_
          intro _ after holds
          refine ⟨_, holds, ?_⟩
          intro candidate notMarker notFinal
          rw [Function.update_of_ne notMarker]
          exact alongside_of_ne notMarker notFinal
      | true => cases incomplete

theorem rename_holding
    (holding : Holding base name (alongside marker artifactPart file)
      before.disk) {answer : Bool}
    (answered : alone self allowed (.rename name artifactPart m.filename)
      before answer after) :
    (answer = false ∧ after.disk = before.disk) ∨ (answer = true ∧
      Holding base name (alongside marker m.filename file) after.disk ∧
      after.disk.files = before.disk.files) := by
  rcases World.exec_rename answered.1 with unchanged | ⟨id, ref, rfl, found,
    present, same⟩
  · exact Or.inl unchanged
  · right
    rw [holding.subdirectory_eq] at found
    cases found
    rw [holding.entry_inside, alongside, Function.update_self] at present
    cases present
    obtain ⟨newer, made⟩ := holding.linked artifactPart file
      (by rw [alongside, Function.update_self])
    have moved := (holding.detach artifactPart).attach m.filename newer made
    have partless : Function.update (markerOnly marker) artifactPart none =
        markerOnly marker := by
      refine Function.update_eq_self_iff.mpr ?_
      rw [markerOnly, Function.update_of_ne (by decide)]
    rw [alongside, Function.update_idem, partless] at moved
    rw [same]
    exact ⟨rfl, moved, rfl⟩

/-- The end of the download, once the partial file is verified. -/
private theorem publish_wp {content : Bytes}
    (fits : MarkerFits q.runtimeDirectory name)
    (visible : m.filename ≠ ownerMarker)
    (promised : Promised sodium m content)
    (holding : Holding base name (alongside marker artifactPart file)
      before.disk)
    (written : MarkerWritten self pid name marker before.disk)
    (stored : before.disk.files file = ⟨content, .privateFile, some self⟩) :
    Program.wp (alone self allowed)
      (do
        if !(← sys (.rename name artifactPart m.filename)) then
          return ⟨.ioError, false, none⟩
        if !(← sys .allocate) then return ⟨.outOfMemory, true, none⟩
        let (directoryCopied, pathCopied) ← sys .duplicatePaths
        let artifact : Artifact :=
          { directory := if directoryCopied then some name else none,
            path := if pathCopied then some (name, m.filename) else none }
        if !(directoryCopied && pathCopied) then
          artifactRelease q.runtimeDirectory artifact
          return ⟨.outOfMemory, true, none⟩
        return ⟨.ok, true, some artifact⟩)
      (FetchAttempt self allowed sodium pid m reply base name) before := by
  simp only [Program.perform_bind]
  intro renamed afterRename answered
  rcases rename_holding holding answered with ⟨rfl, same⟩ | ⟨rfl, holds, same⟩
  · refine FetchAttempt.leave (same ▸ holding) (by simp) fun ensures => ?_
    exact absurd (ensures _ _ _ answered.2) (by simp [callsSucceed])
  simp only [Bool.not_true, Bool.false_eq_true, if_false]
  have final : ∀ world : World, world.disk = afterRename.disk →
      ∃ entries, Holding base name entries world.disk ∧
        ∀ candidate, candidate ≠ ownerMarker → candidate ≠ m.filename →
          entries candidate = none := by
    intro world unchanged
    exact ⟨_, unchanged ▸ holds, fun _ => alongside_of_ne⟩
  refine wp_quiet rfl fun allocated afterAllocate allocation sameAllocate => ?_
  cases allocated with
  | false =>
      refine FetchAttempt.leaveFinal (fun _ => final _ sameAllocate) (by simp)
        fun ensures => ?_
      exact absurd (ensures _ _ _ allocation) (by simp [callsSucceed])
  | true =>
      refine wp_quiet rfl fun copied afterCopy copying sameCopy => ?_
      obtain ⟨directoryCopied, pathCopied⟩ := copied
      have sameDisk := sameCopy.trans sameAllocate
      rw [← sameDisk] at holds same
      dsimp only
      cases complete : (directoryCopied && pathCopied) with
      | false =>
          simp only [Bool.not_false, if_true]
          rw [Program.wp_bind]
          refine Program.wp_mono (Program.wp_of_imp (releaseIncomplete_wp
            complete fits visible holds)) ?_
          intro _ released cleared
          refine FetchAttempt.leaveFinal cleared (by simp) fun ensures => ?_
          have copies := ensures _ _ _ copying
          simp only [callsSucceed, Prod.mk.injEq] at copies
          rw [copies.1, copies.2] at complete
          cases complete
      | true =>
          obtain ⟨rfl, rfl⟩ := Bool.and_eq_true_iff.mp complete
          refine ⟨fun _ => ⟨rfl, ⟨marker, file, content, ?_, ?_, promised,
            holds⟩⟩, fun failed => absurd rfl failed, fun _ _ => rfl⟩
          · obtain ⟨created, epoch, text⟩ := written
            exact ⟨created, epoch, by rw [same, text]⟩
          · rw [same, stored]

private theorem artifactSize_lt (m : Manifest) :
    m.artifactSize.toInt < sizeRange := by
  have small := m.artifactSize.toInt_lt
  have range : (sizeRange : Int) = 2 ^ 64 := rfl
  omega

theorem fetchArtifact_wp {encodedManifest : Bytes}
    {network : Exchange → Reply}
    (fits : MarkerFits q.runtimeDirectory name)
    (visible : m.filename ≠ ownerMarker)
    (holding : Holding base name (alongside marker artifactPart file)
      before.disk)
    (written : MarkerWritten self pid name marker before.disk)
    (different : marker ≠ file)
    (blank : before.disk.files file = ⟨[], .privateFile, some self⟩) :
    Program.wp (alone self allowed)
      (posix.fetchArtifact sodium q m encodedManifest network name file)
      (FetchAttempt self allowed sodium pid m
        (network (artifactExchange q encodedManifest)) base name) before := by
  have newer := (holding.linked artifactPart file
    (by rw [alongside, Function.update_self])).1
  have outOfMemory : ∀ {world : World}, world.disk = before.disk →
      ¬Ensures allowed callsSucceed →
      FetchAttempt self allowed sodium pid m
        (network (artifactExchange q encodedManifest)) base name
        ⟨.outOfMemory, false, none⟩ world := by
    intro world same fails
    exact FetchAttempt.leave (same ▸ holding) (by simp) fun ensures =>
      absurd ensures fails
  unfold Platform.fetchArtifact
  simp only [posix_rename, posix_artifactRelease, Program.perform_bind]
  refine wp_guard rfl (by simp [callsSucceed]) (fun _ => outOfMemory) ?_
  intro first sameFirst
  refine wp_guard rfl (by simp [callsSucceed]) (fun _ same => outOfMemory
    (same.trans sameFirst)) ?_
  intro second sameSecond
  refine wp_guard rfl (by simp [callsSucceed]) (fun _ same => outOfMemory
    (same.trans (sameSecond.trans sameFirst))) ?_
  intro third sameThird
  refine wp_guard rfl (by simp [callsSucceed]) (fun _ same => outOfMemory
    (same.trans (sameThird.trans (sameSecond.trans sameFirst)))) ?_
  intro started sameFourth
  have same : started.disk = before.disk :=
    sameFourth.trans (sameThird.trans (sameSecond.trans sameFirst))
  rw [← same] at holding blank written
  rw [Program.wp_bind]
  refine Program.wp_mono (deliver_receiveFile_wp file _ _ started) ?_
  rintro ⟨delivered, d⟩ received ⟨⟨content, disk, complete⟩, succeeds⟩
  dsimp only at complete succeeds ⊢
  have stored : received.disk.files file =
      ⟨content, .privateFile, some self⟩ := by
    rw [disk, Disk.append, Disk.setFile, blank]
    exact Function.update_self ..
  have marked : MarkerWritten self pid name marker received.disk := by
    obtain ⟨created, epoch, text⟩ := written
    refine ⟨created, epoch, ?_⟩
    rw [disk]
    exact (Function.update_of_ne different _ _).trans text
  have holds := holding.append newer content
  rw [← disk] at holds
  split
  · rename_i refused
    refine FetchAttempt.leave holds (by simp) ?_
    rintro ensures ⟨transferred, atLeast, below, length, hash⟩
    have room : Download.Room ⟨m.artifactSize.toInt, 0, [], false⟩
        (network (artifactExchange q encodedManifest)).chunks.flatten.length :=
      ⟨by simpa using length.le, by simpa using artifactSize_lt m⟩
    have all := succeeds ensures room
    obtain ⟨-, rfl⟩ := complete all
    simp only [transferred, all, Download.took] at refused
    simp only [Bool.and_self, Bool.not_true, Bool.false_eq_true, List.nil_append,
      zero_add, not_lt.mpr atLeast, not_le.mpr below, hash, length, ne_eq, not_true_eq_false, or_self] at refused
  · rename_i accepted
    simp only [not_or, Bool.not_eq_true, Bool.not_eq_false', not_not,
      Bool.and_eq_true] at accepted
    obtain ⟨⟨-, all⟩, -, -, -, size, hash⟩ := accepted
    obtain ⟨rfl, rfl⟩ := complete all
    have promised : Promised sodium m
        (network (artifactExchange q encodedManifest)).chunks.flatten := by
      simp only [Download.took, List.nil_append, zero_add] at size hash
      exact ⟨size, hash⟩
    refine wp_quiet rfl fun synced afterSync syncing sameSync => ?_
    refine wp_quiet rfl fun closed afterClose closing sameClose => ?_
    have sameDisk := sameClose.trans sameSync
    rw [← sameDisk] at holds stored marked
    cases finished : (synced && closed) with
    | false =>
        refine FetchAttempt.leave holds (by simp) fun ensures => ?_
        have synced' : synced = true := ensures _ _ _ syncing
        have closed' : closed = true := ensures _ _ _ closing
        rw [synced', closed'] at finished
        cases finished
    | true =>
        have rest : Program.wp (alone self allowed) _ (FetchAttempt self allowed
            sodium pid m (network (artifactExchange q encodedManifest)) base
            name) afterClose :=
          publish_wp fits visible promised holds marked stored
        simp only [Program.perform_bind] at rest
        simpa only [Bool.not_true, Bool.false_eq_true, if_false] using rest

/-- Every path the download builds fits its buffer. -/
structure PathsFit (q : Request) (m : Manifest) (pid : Nat) : Prop where
  markers : MarkersFit q.runtimeDirectory pid
  files : ∀ name, tempName name = true →
    (slashed (slashed q.runtimeDirectory name) artifactPart).length < pathMax ∧
      (slashed (slashed q.runtimeDirectory name) m.filename).length < pathMax
  url : ∀ encodedManifest,
    (artifactExchange q encodedManifest).url.length < pathMax

/-- What `downloadArtifact` returns and leaves behind. -/
structure DownloadAttempt (owner : Process)
    (allowed : (call : Call) → World → Answer call → Prop) (sodium : Sodium)
    (q : Request) (pid : Nat) (m : Manifest) (reply : Reply) (base : Disk)
    (outcome : Result × Option Artifact) (after : World) : Prop where
  published : outcome.1 = .ok → ∃ name, tempName name = true ∧
    base.root.lookup name = none ∧ MarkerFits q.runtimeDirectory name ∧
    outcome.2 = some ⟨some name, some (name, m.filename)⟩ ∧
    Published owner sodium pid m base name after.disk
  failed : outcome.1 ≠ .ok → outcome.2 = none ∧
    (Ensures allowed deletionsSucceed → Settled base after.disk)
  succeeds : Ensures allowed callsSucceed → PathsFit q m pid →
    DeliversPromised sodium m reply → outcome.1 = .ok

/-- The code after the cleanup label, for a failed download. -/
private theorem discard_wp {final : Bool} {α : Type} {outcome : α}
    (fits : MarkerFits q.runtimeDirectory name)
    (absent : base.root.lookup name = none)
    (left : Ensures allowed deletionsSucceed → ∃ entries,
      Holding base name entries before.disk ∧
        ∀ candidate, candidate ≠ ownerMarker → candidate ≠ artifactPart →
          (final = true → candidate ≠ m.filename) →
            entries candidate = none) :
    Program.wp (alone self allowed)
      (.call (.unlink (.path name artifactPart)) fun _ =>
        if final then
          .call (.unlink (.path name m.filename)) fun _ =>
            removeDirectory q.runtimeDirectory name >>= fun _ => pure outcome
        else removeDirectory q.runtimeDirectory name >>= fun _ => pure outcome)
      (fun value after => value = outcome ∧
        (Ensures allowed deletionsSucceed → Settled base after.disk))
      before := by
  intro unlinked between answered
  cases final with
  | false =>
      change Program.wp _ (_ >>= _) _ _
      rw [Program.wp_bind]
      refine Program.wp_mono (Program.wp_of_imp fun deletes => ?_)
        fun _ _ settled => ⟨rfl, settled⟩
      obtain ⟨entries, holding, cleared⟩ := left deletes
      refine removeDirectory_wp deletes fits absent
        (unlink_holding deletes holding answered) ?_
      intro candidate notMarker
      by_cases part : candidate = artifactPart
      · rw [part, Function.update_self]
      · rw [Function.update_of_ne part]
        exact cleared candidate notMarker part (by simp)
  | true =>
      intro unlinked' between' answered'
      change Program.wp _ (_ >>= _) _ _
      rw [Program.wp_bind]
      refine Program.wp_mono (Program.wp_of_imp fun deletes => ?_)
        fun _ _ settled => ⟨rfl, settled⟩
      obtain ⟨entries, holding, cleared⟩ := left deletes
      refine removeDirectory_wp deletes fits absent (unlink_holding deletes
        (unlink_holding deletes holding answered) answered') ?_
      intro candidate notMarker
      by_cases jar : candidate = m.filename
      · rw [jar, Function.update_self]
      · rw [Function.update_of_ne jar]
        by_cases part : candidate = artifactPart
        · rw [part, Function.update_self]
        · rw [Function.update_of_ne part]
          exact cleared candidate notMarker part fun _ => jar

/-- Giving up before the partial file exists. -/
private theorem giveUp_wp
    (fits : MarkerFits q.runtimeDirectory name)
    (absent : base.root.lookup name = none)
    (holding : Holding base name (markerOnly marker) before.disk)
    (fails : Ensures allowed callsSucceed → ¬PathsFit q m pid) :
    Program.wp (alone self allowed)
      (removeDirectory q.runtimeDirectory name >>= fun _ =>
        pure (.ioError, none))
      (DownloadAttempt self allowed sodium q pid m reply base) before := by
  rw [Program.wp_bind]
  refine Program.wp_mono (Program.wp_of_imp fun deletes =>
    removeDirectory_wp deletes fits absent holding ?_) ?_
  · intro candidate notMarker
    rw [markerOnly, Function.update_of_ne notMarker]
  · intro _ after settled
    exact ⟨by simp, fun _ => ⟨rfl, settled⟩, fun ensures fit =>
      absurd fit (fails ensures)⟩

/-- From the cleanup label to the end. -/
private theorem settle_wp {fetched : Fetched}
    (temp : tempName name = true) (absent : base.root.lookup name = none)
    (fits : MarkerFits q.runtimeDirectory name)
    (attempt : FetchAttempt self allowed sodium pid m reply base name fetched
      before) :
    Program.wp (alone self allowed)
      (if fetched.result ≠ .ok then
        .call (.unlink (.path name artifactPart)) fun _ =>
          if fetched.finalCreated then
            .call (.unlink (.path name m.filename)) fun _ =>
              removeDirectory q.runtimeDirectory name >>= fun _ =>
                pure (fetched.result, fetched.artifact)
          else removeDirectory q.runtimeDirectory name >>= fun _ =>
            pure (fetched.result, fetched.artifact)
      else pure (fetched.result, fetched.artifact))
      (DownloadAttempt self allowed sodium q pid m reply base) before := by
  by_cases ok : fetched.result = .ok
  · rw [if_neg (not_not_intro ok)]
    obtain ⟨handle, published⟩ := attempt.published ok
    exact ⟨fun _ => ⟨name, temp, absent, fits, handle, published⟩,
      fun failed => absurd ok failed, fun _ _ _ => ok⟩
  · rw [if_pos ok]
    obtain ⟨nothing, left⟩ := attempt.failed ok
    refine Program.wp_mono (discard_wp fits absent left) ?_
    rintro outcome after ⟨rfl, settled⟩
    refine ⟨fun succeeded => absurd succeeded ok, fun _ => ⟨nothing, settled⟩,
      fun ensures _ delivers => attempt.succeeds ensures delivers⟩

theorem downloadArtifact_wp {encodedManifest : Bytes}
    {network : Exchange → Reply}
    (visible : m.filename ≠ ownerMarker) :
    Program.wp (alone self allowed)
      (downloadArtifact sodium q m encodedManifest network)
      (DownloadAttempt self allowed sodium q (before.pidOf self) m
        (network (artifactExchange q encodedManifest)) before.disk) before := by
  unfold downloadArtifact Platform.downloadArtifact
  simp only [posix_makeTempDirectory, posix_createFile, posix_removeFile,
    posix_removeDirectory, Program.perform_bind]
  intro directoryOk checked answered
  have sameChecked : checked.disk = before.disk :=
    World.exec_disk rfl answered.1
  have pid : checked.pidOf self = before.pidOf self := by
    rw [(World.exec_frame answered.1).2.1]
  cases directoryOk with
  | false =>
      refine ⟨by simp, fun _ => ⟨rfl, fun _ => sameChecked ▸ Settled.refl _⟩,
        fun ensures => ?_⟩
      exact absurd (ensures _ _ _ answered.2) (by simp [callsSucceed])
  | true =>
      simp only [Bool.not_true, Bool.false_eq_true, if_false]
      rw [Program.wp_bind]
      refine Program.wp_mono makeTempDirectory_wp ?_
      rintro made directory ⟨marked, undone, succeeds⟩
      rw [pid, sameChecked] at marked
      rw [sameChecked] at undone
      rw [pid] at succeeds
      cases made with
      | none =>
          refine ⟨by simp, fun _ => ⟨rfl, undone rfl⟩, fun ensures fit => ?_⟩
          exact absurd (succeeds ensures fit.markers) (by simp)
      | some name =>
          obtain ⟨temp, absent, fits, marker, written, holding⟩ :=
            marked name rfl
          dsimp only
          split
          · rename_i tooLong
            rw [posix_pathMax] at tooLong
            refine giveUp_wp fits absent holding fun _ fit => ?_
            obtain ⟨part, jar⟩ := fit.files name temp
            have url := fit.url encodedManifest
            omega
          intro opened between answeredOpen
          rcases World.exec_openExcl answeredOpen.1 with
            ⟨notOpened, sameDisk⟩ |
            ⟨file, slot, rfl, resolved, -, fresh, created⟩
          · have abandoned : Program.wp (alone self allowed)
                (removeDirectory q.runtimeDirectory name >>= fun _ =>
                  pure (.ioError, none))
                (DownloadAttempt self allowed sodium q (before.pidOf self) m
                  (network (artifactExchange q encodedManifest)) before.disk)
                between := by
              refine giveUp_wp fits absent (sameDisk ▸ holding)
                fun ensures => ?_
              obtain ⟨ref, impossible⟩ := ensures _ _ _ answeredOpen.2
              exact absurd impossible (notOpened ref)
            cases opened with
            | opened ref => exact absurd rfl (notOpened ref)
            | occupied => exact abandoned
            | failed => exact abandoned
          · rw [holding.resolve_path] at resolved
            cases resolved
            have older := (holding.linked ownerMarker marker
              (by rw [markerOnly, Function.update_self])).2
            have different : marker ≠ file := by
              rintro rfl
              rw [fresh.1] at older
              exact Nat.lt_irrefl _ older
            have holds := holding.create artifactPart self fresh
            rw [← created] at holds
            have blank : between.disk.files file =
                ⟨[], .privateFile, some self⟩ := by
              rw [created]
              exact Function.update_self ..
            have kept : MarkerWritten self (before.pidOf self) name marker
                between.disk := by
              obtain ⟨moment, epoch, text⟩ := written
              refine ⟨moment, epoch, ?_⟩
              rw [created]
              exact (Function.update_of_ne different _ _).trans text
            dsimp only
            rw [Program.wp_bind]
            refine Program.wp_mono (fetchArtifact_wp fits visible holds kept
              different blank) ?_
            rintro fetched after attempt
            exact settle_wp temp absent fits attempt

/-- Releasing a published artifact restores the directory. -/
theorem artifactRelease_wp (deletes : Ensures allowed deletionsSucceed)
    (fits : MarkerFits q.runtimeDirectory name)
    (absent : base.root.lookup name = none)
    (published : Published self sodium pid m base name before.disk) :
    Program.wp (alone self allowed)
      (artifactRelease q.runtimeDirectory
        ⟨some name, some (name, m.filename)⟩)
      (fun _ after => Settled base after.disk) before := by
  obtain ⟨marker, file, content, -, -, -, holding⟩ := published
  intro unlinked between answered
  refine removeDirectory_wp deletes fits absent
    (unlink_holding deletes holding answered) ?_
  intro candidate notMarker
  by_cases jar : candidate = m.filename
  · rw [jar, Function.update_self]
  · rw [Function.update_of_ne jar]
    exact alongside_of_ne notMarker jar

end

end RymgaLoader.Native
