import RymgaLoader.Native.Buffer

/-!
# The growing buffer as a log

`b_reserve`, `b_put` and `receive_memory` of `rymga_loader.c` while memory is
granted, with every operation on a `size_t` checked: a result out of range, a
copy behind the end of the buffer and a loop that does not end are faults.  No
call has one, and the buffer holds what the successful calls appended.
-/

namespace RymgaLoader.Native

namespace BufferLog

inductive Fault where
  | wraps
  | outOfBounds
  | endless
  deriving DecidableEq, Repr

def checkedAdd (left right : Nat) : Except Fault Nat :=
  if left + right < sizeRange then .ok (left + right) else .error .wraps

def checkedSub (left right : Nat) : Except Fault Nat :=
  if right ≤ left then .ok (left - right) else .error .wraps

def checkedMul (left right : Nat) : Except Fault Nat :=
  if left * right < sizeRange then .ok (left * right) else .error .wraps

/-- The growth loop with the rounds it may take. -/
def grow (limit needed : Nat) : Nat → Nat → Except Fault Nat
  | 0, next => if next < needed then .error .endless else .ok next
  | rounds + 1, next =>
      if next < needed then
        if next > limit / 2 then .ok limit
        else do
          let next ← checkedMul next 2
          grow limit needed rounds next
      else .ok next

/-- `b_reserve`; `none` is a refusal. -/
def reserve (b : Buffer) (add : Nat) : Except Fault (Option Buffer) := do
  if add > (← checkedSub b.limit b.data.length) then return none
  let needed ← checkedAdd b.data.length add
  if needed ≤ b.capacity then return some b
  let next ← grow b.limit needed 64
    (if b.capacity = 0 then 256 else b.capacity)
  return some { b with capacity := next }

/-- The `memcpy` behind the bytes in use. -/
def copyIn (b : Buffer) (bytes : Bytes) : Except Fault Buffer :=
  if b.data.length + bytes.length ≤ b.capacity then
    .ok { b with data := b.data ++ bytes }
  else .error .outOfBounds

/-- `b_put`. -/
def put (b : Buffer) (bytes : Bytes) : Except Fault (Bool × Buffer) := do
  match ← reserve b bytes.length with
  | none => return (false, b)
  | some grown =>
      let filled ← copyIn grown bytes
      let _ ← checkedAdd b.data.length bytes.length
      return (true, filled)

/-- What `libcurl` hands to its callback: a number of items of some size, and
the memory that holds them where a memory can. -/
structure Transfer where
  size : Nat
  count : Nat
  bytes : Bytes
  sizeSmall : size < sizeRange
  countSmall : count < sizeRange
  holds : size * count < sizeRange → bytes.length = size * count

/-- `receive_memory`, with the number it returns. -/
def receive (b : Buffer) (transfer : Transfer) :
    Except Fault (Nat × Buffer) := do
  if transfer.count ≠ 0 ∧
      transfer.size > (sizeRange - 1) / transfer.count then
    return (0, b)
  else
    let n ← checkedMul transfer.size transfer.count
    let (stored, b) ← put b (transfer.bytes.take n)
    return (if stored then n else 0, b)

inductive Call where
  | put (bytes : Bytes) (small : bytes.length < sizeRange)
  | receive (transfer : Transfer)

/-- The number of bytes a call asks to append. -/
def Call.length : Call → Nat
  | .put bytes _ => bytes.length
  | .receive transfer => transfer.size * transfer.count

def Call.chunk : Call → Bytes
  | .put bytes _ => bytes
  | .receive transfer => transfer.bytes

/-- A call and whether it succeeds; the callback fails where it does not
return the number of bytes it was given. -/
def Call.run (b : Buffer) : Call → Except Fault (Bool × Buffer)
  | .put bytes _ => BufferLog.put b bytes
  | .receive transfer => do
      let (taken, b) ← BufferLog.receive b transfer
      return (taken = transfer.size * transfer.count, b)

def runAll : Buffer → List Call → Except Fault (List Bool × Buffer)
  | b, [] => .ok ([], b)
  | b, call :: calls => do
      let (succeeded, b) ← call.run b
      let (rest, b) ← runAll b calls
      return (succeeded :: rest, b)

/-- The chunks of the calls that succeeded. -/
def accepted : List Call → List Bool → List Bytes
  | call :: calls, succeeded :: rest =>
      if succeeded then call.chunk :: accepted calls rest
      else accepted calls rest
  | _, _ => []

/-- A buffer of some limit between two calls. -/
structure Sound (limit : Nat) (b : Buffer) : Prop where
  limited : b.limit = limit
  within : b.data.length ≤ b.capacity
  allocated : b.capacity ≤ limit
  started : b.capacity = 0 ↔ b.data = []

theorem sound_empty (limit : Nat) : Sound limit (Buffer.empty limit) :=
  ⟨rfl, Nat.le_refl 0, Nat.zero_le limit, ⟨fun _ => rfl, fun _ => rfl⟩⟩

/-- Doubling reaches what is needed, or stops at the limit. -/
theorem grow_reaches {limit needed rounds next : Nat}
    (fits : needed ≤ limit) (small : limit < sizeRange)
    (below : next ≤ limit) (far : limit < next * 2 ^ rounds) :
    ∃ capacity, grow limit needed rounds next = .ok capacity ∧
      needed ≤ capacity ∧ capacity ≤ limit ∧ next ≤ capacity := by
  induction rounds generalizing next with
  | zero => omega
  | succ rounds ih =>
      rw [grow]
      by_cases enough : next < needed
      · rw [if_pos enough]
        by_cases half : next > limit / 2
        · rw [if_pos half]
          exact ⟨limit, rfl, fits, Nat.le_refl limit, below⟩
        · have doubled : checkedMul next 2 = .ok (next * 2) :=
            if_pos (by omega)
          rw [if_neg half, doubled]
          obtain ⟨capacity, grown, reached, limited, later⟩ :=
            @ih (next * 2) (by omega)
              (by rwa [Nat.mul_assoc, ← Nat.pow_succ'])
          exact ⟨capacity, grown, reached, limited, by omega⟩
      · rw [if_neg enough]
        exact ⟨next, rfl, by omega, below, Nat.le_refl next⟩

/-- What a call that asks for some bytes leaves behind. -/
structure Step (limit : Nat) (b : Buffer) (length : Nat) (chunk : Bytes)
    (succeeded : Bool) (after : Buffer) : Prop where
  sound : Sound limit after
  succeeds : succeeded = true ↔ b.data.length + length ≤ limit
  appends : succeeded = true → after.data = b.data ++ chunk
  unchanged : succeeded = false → after = b
  grows : b.capacity ≤ after.capacity

theorem reserve_step {limit add : Nat} {b : Buffer} (sound : Sound limit b)
    (large : 256 ≤ limit) (small : limit < sizeRange) :
    (limit < b.data.length + add ∧ reserve b add = .ok none) ∨
    (b.data.length + add ≤ limit ∧ ∃ capacity,
      reserve b add = .ok (some { b with capacity := capacity }) ∧
        b.data.length + add ≤ capacity ∧ capacity ≤ limit ∧
        b.capacity ≤ capacity ∧ (capacity = 0 ↔ b.capacity = 0 ∧ add = 0)) := by
  obtain ⟨rfl, within, allocated, started⟩ := sound
  have room : checkedSub b.limit b.data.length =
      .ok (b.limit - b.data.length) := if_pos (by omega)
  by_cases tooLong : add > b.limit - b.data.length
  · left
    refine ⟨by omega, ?_⟩
    rw [reserve, room]
    exact if_pos tooLong
  · right
    have sum : checkedAdd b.data.length add = .ok (b.data.length + add) :=
      if_pos (by omega)
    have reserved : reserve b add = (do
        if b.data.length + add ≤ b.capacity then return some b
        let next ← grow b.limit (b.data.length + add) 64
          (if b.capacity = 0 then 256 else b.capacity)
        return some { b with capacity := next }) := by
      rw [reserve, room]
      refine (if_neg tooLong).trans ?_
      rw [sum]
      rfl
    refine ⟨by omega, ?_⟩
    rw [reserved]
    by_cases enough : b.data.length + add ≤ b.capacity
    · rw [if_pos enough]
      exact ⟨b.capacity, rfl, enough, allocated, Nat.le_refl _,
        fun none => ⟨none, by omega⟩, fun both => both.1⟩
    · rw [if_neg enough]
      obtain ⟨capacity, grown, reached, limited, larger⟩ :=
        @grow_reaches b.limit (b.data.length + add) 64
          (if b.capacity = 0 then 256 else b.capacity) (by omega) small
          (by split <;> omega)
          (by
            rw [sizeRange] at small
            split <;> omega)
      rw [grown]
      have positive : 0 < capacity := by omega
      refine ⟨capacity, rfl, reached, limited, ?_, ?_⟩
      · split at larger <;> omega
      · constructor
        · omega
        · rintro ⟨none, rfl⟩
          have empty := List.length_eq_zero_iff.mpr (started.mp none)
          omega

theorem put_step {limit : Nat} {b : Buffer} (sound : Sound limit b)
    (large : 256 ≤ limit) (small : limit < sizeRange) (bytes : Bytes) :
    ∃ succeeded after, put b bytes = .ok (succeeded, after) ∧
      Step limit b bytes.length bytes succeeded after := by
  rcases @reserve_step limit bytes.length b sound large small with
    ⟨tooLong, refused⟩ | ⟨fits, capacity, reserved, reached, limited, larger,
      first⟩
  · refine ⟨false, b, ?_, ?_⟩
    · rw [put, refused]
      rfl
    · refine ⟨sound, ?_, nofun, fun _ => rfl, Nat.le_refl _⟩
      constructor
      · nofun
      · omega
  · refine ⟨true, ⟨b.data ++ bytes, capacity, b.limit⟩, ?_, ?_⟩
    · have copied : copyIn { b with capacity := capacity } bytes =
          .ok ⟨b.data ++ bytes, capacity, b.limit⟩ := if_pos reached
      have sum : checkedAdd b.data.length bytes.length =
          .ok (b.data.length + bytes.length) := if_pos (by omega)
      rw [put, reserved]
      change (do
        let filled ← copyIn { b with capacity := capacity } bytes
        let _ ← checkedAdd b.data.length bytes.length
        return (true, filled)) = _
      rw [copied, sum]
      rfl
    · refine ⟨⟨sound.limited, ?_, limited, ?_⟩, ?_, fun _ => rfl, nofun,
        larger⟩
      · rw [List.length_append]
        exact reached
      · rw [first, sound.started, List.append_eq_nil_iff,
          List.length_eq_zero_iff]
      · exact iff_of_true rfl fits

/-- A transfer that passes the test of `receive` has a length. -/
theorem Transfer.fits {transfer : Transfer} (passes : ¬(transfer.count ≠ 0 ∧
    transfer.size > (sizeRange - 1) / transfer.count)) :
    transfer.size * transfer.count < sizeRange := by
  have positive : 0 < sizeRange := Nat.two_pow_pos 64
  by_cases none : transfer.count = 0
  · rw [none, Nat.mul_zero]
    exact positive
  · have product := (Nat.le_div_iff_mul_le (Nat.pos_of_ne_zero none)).mp
      (Nat.le_of_not_gt fun more => passes ⟨none, more⟩)
    omega

theorem receive_step {limit : Nat} {b : Buffer} (sound : Sound limit b)
    (large : 256 ≤ limit) (small : limit < sizeRange)
    (transfer : Transfer) :
    ∃ succeeded after, (Call.receive transfer).run b = .ok (succeeded, after) ∧
      Step limit b (transfer.size * transfer.count) transfer.bytes succeeded
        after := by
  rw [Call.run, receive]
  by_cases overflow : transfer.count ≠ 0 ∧
      transfer.size > (sizeRange - 1) / transfer.count
  · have huge : sizeRange ≤ transfer.size * transfer.count := by
      have product := (Nat.div_lt_iff_lt_mul
        (Nat.pos_of_ne_zero overflow.1)).mp overflow.2
      omega
    have positive : 0 < sizeRange := Nat.two_pow_pos 64
    refine ⟨false, b, ?_, sound, ?_, nofun, fun _ => rfl, Nat.le_refl _⟩
    · rw [if_pos overflow]
      have different : ¬0 = transfer.size * transfer.count := by omega
      simp [bind, Except.bind, pure, Except.pure, different]
    · constructor
      · nofun
      · omega
  · have fits := Transfer.fits overflow
    have length := transfer.holds fits
    have product : checkedMul transfer.size transfer.count =
        .ok (transfer.size * transfer.count) := if_pos fits
    obtain ⟨succeeded, after, stored, step⟩ :=
      put_step sound large small transfer.bytes
    rw [if_neg overflow, product]
    rw [← length]
    simp only [bind, Except.bind, List.take_length, stored, pure, Except.pure]
    refine ⟨succeeded, after, ?_, step⟩
    cases succeeded with
    | true => simp
    | false =>
        have positive : ¬0 = transfer.bytes.length := by
          intro nothing
          have room := sound.within.trans sound.allocated
          have succeeds := step.succeeds.mpr (by omega)
          cases succeeds
        simp [positive]

theorem run_step {limit : Nat} {b : Buffer} (sound : Sound limit b)
    (large : 256 ≤ limit) (small : limit < sizeRange) (call : Call) :
    ∃ succeeded after, call.run b = .ok (succeeded, after) ∧
      Step limit b call.length call.chunk succeeded after := by
  cases call with
  | put bytes _ => exact put_step sound large small bytes
  | receive transfer => exact receive_step sound large small transfer

theorem length_chunk {call : Call} (fits : call.length < sizeRange) :
    call.chunk.length = call.length := by
  cases call with
  | put bytes _ => rfl
  | receive transfer => exact transfer.holds fits

/-- What a sequence of calls leaves behind. -/
theorem runAll_log {limit : Nat} {b : Buffer} (sound : Sound limit b)
    (large : 256 ≤ limit) (small : limit < sizeRange) (calls : List Call) :
    ∃ succeeded after, runAll b calls = .ok (succeeded, after) ∧
      Sound limit after ∧ succeeded.length = calls.length ∧
      after.data = b.data ++ (accepted calls succeeded).flatten := by
  induction calls generalizing b with
  | nil => exact ⟨[], b, rfl, sound, rfl, (List.append_nil _).symm⟩
  | cons call calls ih =>
      obtain ⟨first, middle, run, step⟩ := run_step sound large small call
      obtain ⟨rest, after, runs, afterSound, length, data⟩ := ih step.sound
      refine ⟨first :: rest, after, ?_, afterSound, ?_, ?_⟩
      · rw [runAll, run]
        simp only [bind, Except.bind, runs, pure, Except.pure]
      · rw [List.length_cons, List.length_cons, length]
      · rw [data]
        cases first with
        | true =>
            rw [step.appends rfl, accepted, if_pos rfl, List.flatten_cons,
              List.append_assoc]
        | false =>
            rw [step.unchanged rfl, accepted, if_neg Bool.false_ne_true]

/-- While the total stays within the limit, every call succeeds. -/
theorem runAll_within {limit : Nat} {b : Buffer} (sound : Sound limit b)
    (large : 256 ≤ limit) (small : limit < sizeRange) {calls : List Call}
    (total : b.data.length + (calls.map Call.length).sum ≤ limit) :
    ∃ after, runAll b calls =
        .ok (List.replicate calls.length true, after) ∧
      after.data = b.data ++ (calls.map Call.chunk).flatten := by
  induction calls generalizing b with
  | nil => exact ⟨b, rfl, (List.append_nil _).symm⟩
  | cons call calls ih =>
      rw [List.map_cons, List.sum_cons] at total
      obtain ⟨first, middle, run, step⟩ := run_step sound large small call
      cases step.succeeds.mpr (by omega)
      have data := step.appends rfl
      have length := @length_chunk call (by omega)
      obtain ⟨after, runs, content⟩ := @ih middle step.sound (by
        rw [data, List.length_append]
        omega)
      refine ⟨after, ?_, ?_⟩
      · rw [runAll, run]
        simp only [bind, Except.bind, runs, pure, Except.pure,
          List.length_cons, List.replicate_succ]
      · rw [content, data, List.map_cons, List.flatten_cons,
          List.append_assoc]

theorem checkedSub_eq {left right difference : Nat}
    (checked : checkedSub left right = .ok difference)
    (small : left < sizeRange) : sizeSub left right = difference := by
  unfold checkedSub at checked
  split at checked
  · rename_i ordered
    cases checked
    exact sizeSub_eq ordered small
  · cases checked

theorem grow_eq {limit needed rounds next capacity : Nat}
    (grown : grow limit needed rounds next = .ok capacity) :
    Native.grow limit needed rounds next = capacity := by
  induction rounds generalizing next with
  | zero =>
      rw [grow] at grown
      split at grown
      · cases grown
      · cases grown
        rfl
  | succ rounds ih =>
      rw [grow] at grown
      rw [Native.grow]
      split at grown
      · rename_i short
        rw [if_pos short]
        split at grown
        · rename_i half
          cases grown
          rw [if_pos half]
        · rename_i half
          rw [if_neg half]
          by_cases fits : next * 2 < sizeRange
          · have doubled : checkedMul next 2 = .ok (next * 2) := if_pos fits
            rw [doubled] at grown
            rw [sizeMul, Nat.mod_eq_of_lt fits]
            exact ih grown
          · have wraps : checkedMul next 2 = .error .wraps := if_neg fits
            rw [wraps] at grown
            cases grown
      · rename_i enough
        cases grown
        rw [if_neg enough]

/-- Where memory is granted, `bPut` does what the checked writer does. -/
theorem bPut_wp_put {self : Process}
    {allowed : (call : Native.Call) → World → Answer call → Prop}
    (allocates : Allocates allowed) {limit : Nat} {b : Buffer}
    (sound : Sound limit b) (small : limit < sizeRange) {bytes : Bytes}
    {outcome : Bool × Buffer} (stored : put b bytes = .ok outcome)
    (world : World) :
    Program.wp (alone self allowed) ((bPut bytes).run b)
      (fun result _ => result = outcome) world := by
  obtain ⟨rfl, within, allocated, started⟩ := sound
  have difference : checkedSub b.limit b.data.length =
      .ok (b.limit - b.data.length) := if_pos (by omega)
  have room := checkedSub_eq difference small
  rw [put, reserve, difference] at stored
  by_cases tooLong : bytes.length > b.limit - b.data.length
  · have refused : (bPut bytes).run b = .done (false, b) := by
      simp [bPut, bReserve, room, tooLong]
    simp only [bind, Except.bind, tooLong, if_true, pure, Except.pure]
      at stored
    cases stored
    rw [refused]
    rfl
  · have sum : checkedAdd b.data.length bytes.length =
        .ok (b.data.length + bytes.length) := if_pos (by omega)
    have total : sizeAdd b.data.length bytes.length =
        b.data.length + bytes.length := Nat.mod_eq_of_lt (by omega)
    by_cases enough : b.data.length + bytes.length ≤ b.capacity
    · have written : (bPut bytes).run b =
          .done (true, { b with data := b.data ++ bytes }) := by
        simp [bPut, bReserve, room, tooLong, total, enough]
      simp only [bind, Except.bind, tooLong, if_false, sum, enough, if_true,
        pure, Except.pure, copyIn] at stored
      cases stored
      rw [written]
      rfl
    · cases grown : grow b.limit (b.data.length + bytes.length) 64
          (if b.capacity = 0 then 256 else b.capacity) with
      | error fault =>
          simp only [bind, Except.bind, tooLong, if_false, sum, enough, grown]
            at stored
          cases stored
      | ok capacity =>
          have asks : (bPut bytes).run b = .call .allocate fun allocated =>
              if allocated then .done (true, ⟨b.data ++ bytes, capacity,
                b.limit⟩)
              else .done (false, b) := by
            simp [bPut, bReserve, room, tooLong, total, enough,
              grow_eq grown]
            funext allocated
            cases allocated <;> simp
          rw [asks]
          refine wp_quiet rfl fun allocated after answered disk => ?_
          cases allocates _ _ answered
          simp only [bind, Except.bind, tooLong, if_false, sum, enough, grown,
            pure, Except.pure, copyIn] at stored
          by_cases reached : b.data.length + bytes.length ≤ capacity
          · rw [if_pos reached] at stored
            cases stored
            rfl
          · rw [if_neg reached] at stored
            cases stored

/-- Where memory is granted, `receiveMemory` does what the checked callback
does. -/
theorem receiveMemory_wp_receive {self : Process}
    {allowed : (call : Native.Call) → World → Answer call → Prop}
    (allocates : Allocates allowed) {limit : Nat} {b : Buffer}
    (sound : Sound limit b) (small : limit < sizeRange) {transfer : Transfer}
    {outcome : Nat × Buffer} (received : receive b transfer = .ok outcome)
    (world : World) :
    Program.wp (alone self allowed)
      ((receiveMemory transfer.bytes transfer.size transfer.count).run b)
      (fun result _ => result = outcome) world := by
  rw [receive] at received
  rw [receiveMemory, transferLength]
  by_cases overflow : transfer.count ≠ 0 ∧
      transfer.size > (sizeRange - 1) / transfer.count
  · rw [if_pos overflow] at received ⊢
    cases received
    rfl
  · have fits := Transfer.fits overflow
    have product : checkedMul transfer.size transfer.count =
        .ok (transfer.size * transfer.count) := if_pos fits
    have length := transfer.holds fits
    rw [if_neg overflow, product, ← length] at received
    rw [if_neg overflow, sizeMul, Nat.mod_eq_of_lt fits, ← length]
    simp only [List.take_length]
    simp only [bind, Except.bind, List.take_length] at received
    cases stored : put b transfer.bytes with
    | error fault =>
        rw [stored] at received
        cases received
    | ok result =>
        rw [stored] at received
        cases received
        rw [StateT.run_bind, Program.wp_bind]
        refine Program.wp_mono (bPut_wp_put allocates sound small stored world)
          ?_
        rintro ⟨succeeded, filled⟩ after rfl
        cases succeeded with
        | true => rfl
        | false => rfl

/-- From an empty buffer no sequence of calls has a fault, and the buffer is
the log of the chunks that were taken: a call is taken exactly while the total
stays within the limit, and one that is not leaves everything as it was. -/
theorem buffer_log {limit : Nat} (large : 256 ≤ limit)
    (small : limit < sizeRange) (calls : List Call) :
    ∃ succeeded b,
      runAll (Buffer.empty limit) calls = .ok (succeeded, b) ∧
      Sound limit b ∧ succeeded.length = calls.length ∧
      b.data = (accepted calls succeeded).flatten ∧
      (∀ call : Call, ∃ result after, call.run b = .ok (result, after) ∧
        Step limit b call.length call.chunk result after) ∧
      ((calls.map Call.length).sum ≤ limit →
        b.data = (calls.map Call.chunk).flatten ∧
        ∀ others : List Call, (others.map Call.length).sum ≤ limit →
          (others.map Call.chunk).flatten = (calls.map Call.chunk).flatten →
          ∃ results other, runAll (Buffer.empty limit) others =
            .ok (results, other) ∧ other.data = b.data) := by
  have start := sound_empty limit
  obtain ⟨succeeded, b, runs, sound, length, data⟩ :=
    runAll_log start large small calls
  have whole (calls : List Call)
      (total : (calls.map Call.length).sum ≤ limit) :=
    @runAll_within limit _ start large small calls
      (by simpa [Buffer.empty] using total)
  refine ⟨succeeded, b, runs, sound, length, data,
    fun call => run_step sound large small call, fun total => ?_⟩
  obtain ⟨after, ran, content⟩ := whole calls total
  rw [ran] at runs
  cases runs
  refine ⟨content, fun others otherTotal same => ?_⟩
  obtain ⟨other, otherRan, otherContent⟩ := whole others otherTotal
  exact ⟨_, other, otherRan, by rw [otherContent, content, same]⟩

/-- Three bytes of a response in one piece, after a refused transfer whose
sizes multiply to more than a `size_t` holds. -/
def smallCalls : List Call :=
  [.receive ⟨2 ^ 63, 2, [], by decide, by decide, by decide⟩,
    .receive ⟨1, 3, [1, 2, 3], by decide, by decide, fun _ => rfl⟩]

theorem buffer_log_small :
    runAll (Buffer.empty 256) smallCalls =
      .ok ([false, true], ⟨[1, 2, 3], 256, 256⟩) ∧
    ∃ succeeded b, runAll (Buffer.empty 256) smallCalls = .ok (succeeded, b) ∧
      b.data = (accepted smallCalls succeeded).flatten := by
  refine ⟨by decide +kernel, ?_⟩
  obtain ⟨succeeded, b, runs, -, -, data, -⟩ :=
    @buffer_log 256 (by decide) (by decide) smallCalls
  exact ⟨succeeded, b, runs, data⟩

end BufferLog

end RymgaLoader.Native
