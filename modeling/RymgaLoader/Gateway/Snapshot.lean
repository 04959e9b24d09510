import RymgaLoader.Gateway.Startup

/-!
# Reading a file that may change

The read loop of `sha256` and `writeTo` over an artifact file that other
programs may still write to.  Every read fills the buffer as far as the file
then reaches, so a file that has grown can be read beyond its announced size.
-/

namespace RymgaLoader.Gateway

open Protocol

/-- An open artifact file over the reads of one loop: its bytes at each read,
and how many of them the read at a position returns beyond the first. -/
structure ChangingFile where
  content : Nat → Bytes
  counts : (step position : Nat) → Nat

namespace ChangingFile

variable (file : ChangingFile)

/-- One read into the 32 KiB buffer. -/
def read (step position : Nat) : Bytes :=
  ((file.content step).drop position).take
    (min (32 * 1024) (file.counts step position + 1))

/-- The read loop: the bytes in order, or nothing when the file ends early.
Every round reads at least one byte. -/
def readFrom (size : Nat) : (rounds step position : Nat) → Option Bytes
  | 0, _, position => if position < size then none else some []
  | rounds + 1, step, position =>
      if position < size then
        let bytes := file.read step position
        if bytes = [] then none
        else (readFrom size rounds (step + 1)
          (position + bytes.length)).map (bytes ++ ·)
      else some []

/-- What `writeTo` streams; absent where it throws. -/
def writeTo (size : Int64) : Option Bytes :=
  file.readFrom size.toInt.toNat size.toInt.toNat 0 0

/-- `sha256`; absent where it throws. -/
def sha256 (digest : Bytes → Bytes) (size : Int64) : Option Bytes :=
  (file.readFrom size.toInt.toNat size.toInt.toNat 0 0).map digest

/-- How many bytes the first reads return, when each goes on where the last
one ended. -/
def position : Nat → Nat
  | 0 => 0
  | reads + 1 => position reads + (file.read reads (position reads)).length

/-- How many bytes the first reads may return together: a sum of the counts
alone, whatever the file holds. -/
def requested : Nat → Nat
  | 0 => 0
  | reads + 1 => requested reads +
      min (32 * 1024) (file.counts reads (requested reads) + 1)

/-- The file keeps its first `size` bytes and may grow. -/
def Keeps (size : Int64) (snapshot : Bytes) : Prop :=
  ∀ step, size.toInt.toNat ≤ (file.content step).length ∧
    (file.content step).take size.toInt.toNat = snapshot

/-- Hash and stream cover exactly the snapshot. -/
def Exact (digest : Bytes → Bytes) (size : Int64) (snapshot : Bytes) : Prop :=
  file.sha256 digest size = some (digest snapshot) ∧
    file.writeTo size = some snapshot

/-- The file that does not change. -/
def ofChannel (channel : FileChannel) : ChangingFile where
  content _ := channel.content
  counts _ position := channel.counts position

variable {file}

theorem readFrom_ofChannel (channel : FileChannel)
    (size rounds step position : Nat) :
    (ofChannel channel).readFrom size rounds step position =
      channel.readFrom size rounds position := by
  induction rounds generalizing step position with
  | zero => rfl
  | succ rounds ih =>
      simp only [readFrom, FileChannel.readFrom, ih]
      rfl

private theorem position_mono {first second : Nat} (order : first ≤ second) :
    file.position first ≤ file.position second := by
  induction order with
  | refl => exact Nat.le_refl _
  | step _ ih => exact ih.trans (Nat.le_add_right _ _)

private theorem readFrom_done {size rounds step position : Nat}
    (done : size ≤ position) :
    file.readFrom size rounds step position = some [] := by
  cases rounds with
  | zero => rw [readFrom, if_neg (Nat.not_lt.mpr done)]
  | succ rounds => rw [readFrom, if_neg (Nat.not_lt.mpr done)]

/-- A read inside the snapshot returns some of its bytes. -/
private theorem read_keeps {size step position : Nat} {snapshot : Bytes}
    (long : size ≤ (file.content step).length)
    (kept : (file.content step).take size = snapshot)
    (within : position < size) :
    file.read step position ≠ [] ∧
      (position + (file.read step position).length ≤ size →
        file.read step position ++ snapshot.drop
          (position + (file.read step position).length) =
            snapshot.drop position) := by
  have length : (file.read step position).length =
      min (min (32 * 1024) (file.counts step position + 1))
        ((file.content step).length - position) := by
    rw [read, List.length_take, List.length_drop]
  refine ⟨?_, fun inside => ?_⟩
  · intro empty
    rw [empty, List.length_nil] at length
    omega
  · have start : file.read step position =
        ((file.content step).drop position).take
          (file.read step position).length :=
      List.prefix_iff_eq_take.mp (List.take_prefix _ _)
    have piece : (snapshot.drop position).take
        (file.read step position).length = file.read step position := by
      rw [← kept, List.drop_take, List.take_take,
        Nat.min_eq_left (by omega), ← start]
    rw [← List.drop_drop]
    calc file.read step position ++
          (snapshot.drop position).drop (file.read step position).length
        = (snapshot.drop position).take (file.read step position).length ++
          (snapshot.drop position).drop
            (file.read step position).length := by rw [piece]
      _ = snapshot.drop position := List.take_append_drop _ _

/-- The loop returns the snapshot where its reads end at the announced size,
and more where one of them goes past it. -/
private theorem readFrom_keeps {size rounds step : Nat} {snapshot : Bytes}
    (long : ∀ step, size ≤ (file.content step).length)
    (kept : ∀ step, (file.content step).take size = snapshot)
    (within : file.position step ≤ size)
    (enough : size - file.position step ≤ rounds) :
    ((∃ reads, step ≤ reads ∧ file.position reads = size) →
      file.readFrom size rounds step (file.position step) =
        some (snapshot.drop (file.position step))) ∧
    ((¬∃ reads, step ≤ reads ∧ file.position reads = size) → ∃ bytes,
      file.readFrom size rounds step (file.position step) = some bytes ∧
        size - file.position step < bytes.length) := by
  have length : snapshot.length = size := by
    rw [← kept 0, List.length_take, Nat.min_eq_left (long 0)]
  induction rounds generalizing step with
  | zero =>
      have ended : file.position step = size := by omega
      refine ⟨fun _ => ?_, fun never => absurd ⟨step, Nat.le_refl _, ended⟩
        never⟩
      rw [readFrom_done ended.ge, ended, List.drop_of_length_le length.le]
  | succ rounds ih =>
      by_cases ended : file.position step = size
      · refine ⟨fun _ => ?_, fun never => absurd ⟨step, Nat.le_refl _, ended⟩
          never⟩
        rw [readFrom_done ended.ge, ended, List.drop_of_length_le length.le]
      have before : file.position step < size :=
        Nat.lt_of_le_of_ne within ended
      obtain ⟨some_, piece⟩ := read_keeps (long step) (kept step) before
      have progress : 0 < (file.read step (file.position step)).length :=
        List.length_pos_iff.mpr some_
      have next : file.position (step + 1) = file.position step +
          (file.read step (file.position step)).length := rfl
      have later : (∃ reads, step ≤ reads ∧ file.position reads = size) ↔
          ∃ reads, step + 1 ≤ reads ∧ file.position reads = size := by
        constructor
        · rintro ⟨reads, order, landed⟩
          refine ⟨reads, Nat.lt_of_le_of_ne order ?_, landed⟩
          rintro rfl
          exact ended landed
        · rintro ⟨reads, order, landed⟩
          exact ⟨reads, Nat.le_of_succ_le order, landed⟩
      rw [readFrom, if_pos before]
      dsimp only
      rw [if_neg some_, ← next, later]
      by_cases inside : file.position (step + 1) ≤ size
      · have left : size - file.position (step + 1) ≤ rounds := by omega
        obtain ⟨lands, passes⟩ := ih inside left
        refine ⟨fun landed => ?_, fun never => ?_⟩
        · rw [lands landed, Option.map_some]
          exact congrArg some (piece inside)
        · obtain ⟨bytes, rest, more⟩ := passes never
          rw [rest]
          refine ⟨_, rfl, ?_⟩
          rw [List.length_append]
          clear ih later lands passes never
          omega
      · have past : size < file.position (step + 1) := Nat.lt_of_not_le inside
        refine ⟨?_, fun _ => ?_⟩
        · rintro ⟨reads, order, landed⟩
          have reached : file.position (step + 1) ≤ file.position reads :=
            position_mono order
          omega
        · rw [readFrom_done past.le, Option.map_some, List.append_nil]
          refine ⟨_, rfl, ?_⟩
          omega

private theorem readFrom_short {size start : Nat}
    (short : ∀ step, start ≤ step → (file.content step).length < size)
    {rounds step : Nat} (later : start ≤ step)
    (before : file.position step < size) :
    file.readFrom size rounds step (file.position step) = none := by
  induction rounds generalizing step with
  | zero => rw [readFrom, if_pos before]
  | succ rounds ih =>
      rw [readFrom, if_pos before]
      dsimp only
      split
      · rfl
      rename_i some_
      have next : file.position (step + 1) = file.position step +
          (file.read step (file.position step)).length := rfl
      have progress : 0 < (file.read step (file.position step)).length :=
        List.length_pos_iff.mpr some_
      have held : (file.read step (file.position step)).length ≤
          (file.content step).length - file.position step := by
        rw [read, List.length_take, List.length_drop]
        exact Nat.min_le_right _ _
      have shorter := short step later
      have still : file.position (step + 1) < size := by omega
      rw [← next, ih (Nat.le_succ_of_le later) still]
      rfl

private theorem readFrom_until {size start : Nat}
    (short : ∀ step, start ≤ step → (file.content step).length < size)
    (before : file.position start < size) {rounds step : Nat}
    (earlier : step ≤ start) :
    file.readFrom size rounds step (file.position step) = none := by
  have within : file.position step < size :=
    Nat.lt_of_le_of_lt (position_mono earlier) before
  induction rounds generalizing step with
  | zero => rw [readFrom, if_pos within]
  | succ rounds ih =>
      rcases Nat.eq_or_lt_of_le earlier with rfl | less
      · exact readFrom_short short (Nat.le_refl _) before
      rw [readFrom, if_pos within]
      dsimp only
      split
      · rfl
      · have next : file.position (step + 1) = file.position step +
            (file.read step (file.position step)).length := rfl
        rw [← next, ih less (Nat.lt_of_le_of_lt (position_mono less) before)]
        rfl

/-- While the counts stay within a kept size, every read returns all it may. -/
private theorem position_requested {size : Nat}
    (long : ∀ step, size ≤ (file.content step).length) {reads : Nat}
    (within : file.requested reads ≤ size) :
    file.position reads = file.requested reads := by
  induction reads with
  | zero => rfl
  | succ reads ih =>
      have total : file.requested (reads + 1) = file.requested reads +
          min (32 * 1024) (file.counts reads (file.requested reads) + 1) := rfl
      have next : file.position (reads + 1) = file.position reads +
          (file.read reads (file.position reads)).length := rfl
      have length : (file.read reads (file.position reads)).length =
          min (min (32 * 1024) (file.counts reads (file.position reads) + 1))
            ((file.content reads).length - file.position reads) := by
        rw [read, List.length_take, List.length_drop]
      have before : file.position reads = file.requested reads :=
        ih (by omega)
      have held := long reads
      rw [next, length, before, total]
      omega

/-- The read that asks for the byte at the announced size returns no byte
beyond it exactly where the file then ends there. -/
private theorem lands_iff {size : Nat}
    (long : ∀ step, size ≤ (file.content step).length) :
    (∃ reads, file.position reads = size) ↔
      ∀ reads, file.requested reads < size →
        size < file.requested (reads + 1) →
          (file.content reads).length ≤ size := by
  have next : ∀ reads, file.position (reads + 1) = file.position reads +
      min (min (32 * 1024) (file.counts reads (file.position reads) + 1))
        ((file.content reads).length - file.position reads) := by
    intro reads
    rw [position, read, List.length_take, List.length_drop]
  have total : ∀ reads, file.requested (reads + 1) = file.requested reads +
      min (32 * 1024) (file.counts reads (file.requested reads) + 1) :=
    fun _ => rfl
  constructor
  · rintro ⟨landing, landed⟩ reads before past
    have here := position_requested long before.le
    have after := next reads
    have asked := total reads
    rw [here] at after
    by_contra longer
    have passed : size < file.position (reads + 1) := by omega
    rcases Nat.lt_or_ge reads landing with earlier | later
    · have order : file.position (reads + 1) ≤ file.position landing :=
        position_mono earlier
      omega
    · have order : file.position landing ≤ file.position reads :=
        position_mono later
      omega
  · intro bounded
    by_contra never
    have below : ∀ reads, file.requested reads < size := by
      intro reads
      induction reads with
      | zero =>
          refine Nat.pos_of_ne_zero fun zero => never ⟨0, ?_⟩
          exact zero.symm
      | succ reads ih =>
          by_contra reached
          have here := position_requested long ih.le
          have after := next reads
          have asked := total reads
          rw [here] at after
          have held := long reads
          refine never ⟨reads + 1, ?_⟩
          rcases Nat.eq_or_lt_of_le (Nat.le_of_not_lt reached) with
            same | past
          · omega
          · have ends := bounded reads ih past
            omega
    have grows : ∀ reads, reads ≤ file.requested reads := by
      intro reads
      induction reads with
      | zero => exact Nat.le_refl _
      | succ reads ih =>
          rw [total]
          omega
    exact absurd (below size) (Nat.not_lt.mpr (grows size))

/-- Counts whose reads first ask for as much as leaves the read `late` below
the end, and for the whole buffer from there on. -/
private def crossing (late stop : Nat) (step position : Nat) : Nat :=
  if step < late then
    min (32 * 1024) (stop - position - (late - step - 1)) - 1
  else 32 * 1024 - 1

private theorem requested_crossing (content : Nat → Bytes) {late stop : Nat}
    (enough : late ≤ stop) {reads : Nat} (early : reads ≤ late) :
    requested ⟨content, crossing late stop⟩ reads =
      min (32 * 1024 * reads) (stop - (late - reads)) := by
  induction reads with
  | zero => rw [requested, Nat.mul_zero, Nat.zero_min]
  | succ reads ih =>
      have asked : crossing late stop reads
          (min (32 * 1024 * reads) (stop - (late - reads))) =
            min (32 * 1024) (stop - min (32 * 1024 * reads)
              (stop - (late - reads)) - (late - reads - 1)) - 1 :=
        if_pos early
      rw [requested, ih (Nat.le_of_succ_le early)]
      dsimp only
      rw [asked]
      omega

/-- Over all counts, the reads that can ask for the byte at the announced
size are those by which the buffer can have reached it. -/
private theorem crossed_iff (content : Nat → Bytes) (size : Nat) :
    (∀ counts reads, requested ⟨content, counts⟩ reads < size →
        size < requested ⟨content, counts⟩ (reads + 1) →
          (content reads).length ≤ size) ↔
      ∀ reads < size, size < 32 * 1024 * (reads + 1) →
        (content reads).length ≤ size := by
  constructor
  · intro bounded reads early reachable
    have enough : reads ≤ min (32 * 1024 * reads) (size - 1) := by omega
    have here := requested_crossing content enough (Nat.le_refl reads)
    refine bounded (crossing reads (min (32 * 1024 * reads) (size - 1)))
      reads ?_ ?_
    · rw [here]
      omega
    · have asked : ∀ stop position, crossing reads stop reads position =
          32 * 1024 - 1 := fun _ _ => if_neg (Nat.lt_irrefl _)
      rw [requested]
      dsimp only
      rw [asked, here]
      omega
  · intro bounded counts reads before past
    have span : ∀ steps, steps ≤ requested ⟨content, counts⟩ steps ∧
        requested ⟨content, counts⟩ steps ≤ 32 * 1024 * steps := by
      intro steps
      induction steps with
      | zero => exact ⟨Nat.le_refl _, Nat.le_refl _⟩
      | succ steps ih =>
          rw [requested]
          dsimp only
          omega
    exact bounded reads (Nat.lt_of_le_of_lt (span reads).1 before)
      (Nat.lt_of_lt_of_le past (span (reads + 1)).2)

/-- For a file that keeps the announced bytes, hash and stream cover exactly
them if and only if the file has not grown when a read asks for bytes beyond
them. -/
private theorem exact_iff {digest : Bytes → Bytes} {size : Int64}
    {snapshot : Bytes} (keeps : file.Keeps size snapshot) :
    file.Exact digest size snapshot ↔
      ∀ reads, file.requested reads < size.toInt.toNat →
        size.toInt.toNat < file.requested (reads + 1) →
          (file.content reads).length ≤ size.toInt.toNat := by
  rw [← lands_iff fun step => (keeps step).1]
  have length : snapshot.length = size.toInt.toNat := by
    rw [← (keeps 0).2, List.length_take, Nat.min_eq_left (keeps 0).1]
  have rounds : size.toInt.toNat - file.position 0 ≤ size.toInt.toNat :=
    Nat.sub_le _ _
  have start : file.position 0 = 0 := rfl
  obtain ⟨lands, passes⟩ := readFrom_keeps (fun step => (keeps step).1)
    (fun step => (keeps step).2) (Nat.zero_le _) rounds
  have anywhere : (∃ reads, 0 ≤ reads ∧
      file.position reads = size.toInt.toNat) ↔
      ∃ reads, file.position reads = size.toInt.toNat := by simp
  rw [anywhere] at lands passes
  constructor
  · rintro ⟨-, streamed⟩
    by_contra never
    obtain ⟨bytes, read, more⟩ := passes never
    have same : some bytes = some snapshot := read.symm.trans streamed
    cases same
    clear lands passes never anywhere
    omega
  · intro landed
    have whole : file.writeTo size = some snapshot := lands landed
    refine ⟨?_, whole⟩
    change (file.writeTo size).map digest = _
    rw [whole]
    rfl

/-- Hash and stream cover exactly the announced bytes of a file that keeps
them if and only if the file has not grown at the read whose counts go past
them; whatever the counts, if and only if it has not grown at any read that
can go past them.  Both throw where the file has become shorter. -/
theorem snapshot_exact_iff (file : ChangingFile) (digest : Bytes → Bytes)
    (size : Int64) :
    (∀ snapshot, file.Keeps size snapshot →
      (file.Exact digest size snapshot ↔
        ∀ reads, file.requested reads < size.toInt.toNat →
          size.toInt.toNat < file.requested (reads + 1) →
            (file.content reads).length ≤ size.toInt.toNat) ∧
      ((∀ counts, Exact ⟨file.content, counts⟩ digest size snapshot) ↔
        ∀ reads < size.toInt.toNat,
          size.toInt.toNat < 32 * 1024 * (reads + 1) →
            (file.content reads).length ≤ size.toInt.toNat)) ∧
    ((∃ start, file.position start < size.toInt.toNat ∧ ∀ step,
        start ≤ step → (file.content step).length < size.toInt.toNat) →
      file.sha256 digest size = none ∧ file.writeTo size = none) := by
  refine ⟨fun snapshot keeps => ⟨exact_iff keeps, ?_⟩, ?_⟩
  · rw [← crossed_iff]
    exact forall_congr' fun counts =>
      @exact_iff ⟨file.content, counts⟩ digest size snapshot keeps
  · rintro ⟨start, before, short⟩
    have thrown : file.writeTo size = none :=
      readFrom_until short before (Nat.zero_le _)
    refine ⟨?_, thrown⟩
    change (file.writeTo size).map digest = _
    rw [thrown]
    rfl

/-- A file that grows by a byte with every read, read three bytes at a
time. -/
def growingFile : ChangingFile where
  content step := [1, 2, 3] ++ List.replicate step 4
  counts _ _ := 2

theorem snapshot_exact_small : growingFile.Exact id 3 [1, 2, 3] ∧
    (∀ counts, Exact ⟨fun _ => [1, 2, 3], counts⟩ id 3 [1, 2, 3]) ∧
    writeTo ⟨fun _ => [1, 2], fun _ _ => 0⟩ 3 = none := by
  refine ⟨?_, ?_, ?_⟩
  · refine ((snapshot_exact_iff growingFile id 3).1 [1, 2, 3] fun step =>
      ⟨?_, ?_⟩).1.mpr fun reads before past => ?_
    · change 3 ≤ ([1, 2, 3] ++ List.replicate step (4 : UInt8)).length
      rw [List.length_append]
      exact Nat.le_add_right 3 _
    · exact List.take_left' rfl
    · cases reads with
      | zero => exact absurd past (Nat.lt_irrefl 3)
      | succ reads =>
          exact absurd before (Nat.not_lt.mpr (Nat.le_add_left 3 _))
  · exact ((snapshot_exact_iff ⟨fun _ => [1, 2, 3], fun _ _ => 0⟩ id 3).1
      [1, 2, 3] fun _ => ⟨Nat.le_refl 3, rfl⟩).2.mpr
        fun _ _ _ => Nat.le_refl 3
  · exact ((snapshot_exact_iff ⟨fun _ => [1, 2], fun _ _ => 0⟩ id 3).2
      ⟨0, by decide, fun _ _ => Nat.lt_succ_self 2⟩).2

/-- A file that has grown by a byte before the first read. -/
def grownFile : ChangingFile where
  content _ := [1, 2, 3, 4]
  counts _ _ := 3

theorem snapshot_inexact : grownFile.Keeps 3 [1, 2, 3] ∧
    ¬grownFile.Exact id 3 [1, 2, 3] :=
  ⟨fun _ => ⟨Nat.le_succ 3, rfl⟩, fun exact_ => by cases exact_.2⟩

end ChangingFile

end RymgaLoader.Gateway
