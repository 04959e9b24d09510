import RymgaLoader.Native.Frames
import RymgaLoader.Protocol.Layout

/-!
# The growing buffer of the native core

`buffer` of `rymga_loader.c` with its writers.  Sizes are natural numbers
reduced modulo the range of `size_t` wherever the code computes with them.
-/

namespace RymgaLoader.Native

open Protocol

/-- The number of values of `size_t`. -/
def sizeRange : Nat := 2 ^ 64

def sizeAdd (left right : Nat) : Nat := (left + right) % sizeRange

def sizeSub (left right : Nat) : Nat :=
  (sizeRange - right % sizeRange + left) % sizeRange

def sizeMul (left right : Nat) : Nat := (left * right) % sizeRange

/-- `buffer`; the bytes in use stand for `data` and `length`. -/
structure Buffer where
  data : Bytes
  capacity : Nat
  limit : Nat
  deriving DecidableEq

def Buffer.empty (limit : Nat) : Buffer := ⟨[], 0, limit⟩

/-- Operations on a buffer that report success. -/
abbrev Filling (α : Type) := StateT Buffer (Program Call Answer) α

/-- The growth loop of `b_reserve`; doubling a `size_t` reaches any limit
within 64 rounds. -/
def grow (limit needed : Nat) : Nat → Nat → Nat
  | 0, next => next
  | rounds + 1, next =>
      if next < needed then
        if next > limit / 2 then limit
        else grow limit needed rounds (sizeMul next 2)
      else next

def bReserve (add : Nat) : Filling Bool := do
  let b ← get
  if add > sizeSub b.limit b.data.length then return false
  if sizeAdd b.data.length add ≤ b.capacity then return true
  let next := grow b.limit (sizeAdd b.data.length add) 64
    (if b.capacity = 0 then 256 else b.capacity)
  if ← (sys .allocate : Os Bool) then
    set { b with capacity := next }
    return true
  else return false

def bPut (bytes : Bytes) : Filling Bool := do
  if ← bReserve bytes.length then
    modify fun b => { b with data := b.data ++ bytes }
    return true
  else return false

def bU16 (x : Nat) : Filling Bool := do
  if x ≤ 0xFFFF then bPut [UInt8.ofNat (x >>> 8), UInt8.ofNat x]
  else return false

def bI64 (x : Int64) : Filling Bool :=
  bPut (([7, 6, 5, 4, 3, 2, 1, 0] : List UInt64).map fun i =>
    (x.toUInt64 >>> (i * 8)).toUInt8)

def bString (s : Bytes) : Filling Bool := do
  if s.length ≠ 0 then
    if ← bU16 s.length then bPut s else return false
  else return false

/-- Run the writers until one fails. -/
def allOf : List (Filling Bool) → Filling Bool
  | [] => return true
  | first :: rest => do
      if ← first then allOf rest else return false

/-- The number of bytes a `libcurl` callback is given; `none` when the product
overflows. -/
def transferLength (size count : Nat) : Option Nat :=
  if count ≠ 0 ∧ size > (sizeRange - 1) / count then none
  else some (sizeMul size count)

/-- `receive_memory`, returning the number of bytes it took. -/
def receiveMemory (p : Bytes) (size count : Nat) : Filling Nat :=
  match transferLength size count with
  | none => return 0
  | some n => do
      if ← bPut (p.take n) then return n else return 0

/-- Allocation succeeds. -/
def Allocates (allowed : (call : Call) → World → Answer call → Prop) : Prop :=
  ∀ world answer, allowed .allocate world answer → answer = true

/-- A buffer within a limit that `size_t` can hold. -/
structure Buffer.Bounded (b : Buffer) : Prop where
  within : b.data.length ≤ b.limit
  small : b.limit < sizeRange

section Appending

variable {self : Process}
  {allowed : (call : Call) → World → Answer call → Prop}

theorem sizeSub_eq {left right : Nat} (ordered : right ≤ left)
    (small : left < sizeRange) : sizeSub left right = left - right := by
  rw [sizeSub, Nat.mod_eq_of_lt (by omega : right < sizeRange)]
  have regroup : sizeRange - right + left = (left - right) + sizeRange := by
    omega
  rw [regroup, Nat.add_mod_right, Nat.mod_eq_of_lt (by omega)]

/-- What an attempt to append `bytes` to `b` leaves behind. -/
structure Appended (allowed : (call : Call) → World → Answer call → Prop)
    (b : Buffer) (bytes : Bytes) (before : World) (outcome : Bool × Buffer)
    (after : World) : Prop where
  disk : after.disk = before.disk
  limit : outcome.2.limit = b.limit
  data : outcome.2.data = if outcome.1 then b.data ++ bytes else b.data
  fits : outcome.1 = true → b.data.length + bytes.length ≤ b.limit
  succeeds : Allocates allowed → b.data.length + bytes.length ≤ b.limit →
    outcome.1 = true

theorem bPut_wp {b : Buffer} (bounded : b.Bounded) (bytes : Bytes)
    (world : World) :
    Program.wp (alone self allowed) ((bPut bytes).run b)
      (Appended allowed b bytes world) world := by
  have room := sizeSub_eq bounded.within bounded.small
  have length := bounded.within
  by_cases tooLarge : bytes.length > sizeSub b.limit b.data.length
  · have failed : (bPut bytes).run b = .done (false, b) := by
      simp [bPut, bReserve, tooLarge]
    rw [failed]
    refine ⟨rfl, rfl, by simp, by simp, ?_⟩
    intro _ fits
    omega
  · have fits : b.data.length + bytes.length ≤ b.limit := by omega
    by_cases enough : sizeAdd b.data.length bytes.length ≤ b.capacity
    · have stored : (bPut bytes).run b =
          .done (true, { b with data := b.data ++ bytes }) := by
        simp [bPut, bReserve, tooLarge, enough]
      rw [stored]
      exact ⟨rfl, rfl, by simp, fun _ => fits, fun _ _ => rfl⟩
    · have grows : (bPut bytes).run b = .call .allocate fun allocated =>
          if allocated then .done (true, ⟨b.data ++ bytes,
            grow b.limit (sizeAdd b.data.length bytes.length) 64
              (if b.capacity = 0 then 256 else b.capacity), b.limit⟩)
          else .done (false, b) := by
        simp [bPut, bReserve, tooLarge, enough]
        funext allocated
        cases allocated <;> simp
      rw [grows]
      refine wp_quiet rfl fun allocated after answered disk => ?_
      cases allocated with
      | true => exact ⟨disk, rfl, by simp, fun _ => fits, fun _ _ => rfl⟩
      | false =>
          refine ⟨disk, rfl, by simp, by simp, ?_⟩
          intro allocates _
          exact absurd (allocates _ _ answered) (by simp)

/-- A writer that, when it succeeds, has appended `bytes`. -/
structure Filled (allowed : (call : Call) → World → Answer call → Prop)
    (b : Buffer) (bytes : Bytes) (before : World) (outcome : Bool × Buffer)
    (after : World) : Prop where
  disk : after.disk = before.disk
  limit : outcome.2.limit = b.limit
  within : outcome.2.data.length ≤ b.limit
  data : outcome.1 = true → outcome.2.data = b.data ++ bytes
  succeeds : Allocates allowed → b.data.length + bytes.length ≤ b.limit →
    outcome.1 = true

def Fills (self : Process)
    (allowed : (call : Call) → World → Answer call → Prop)
    (writer : Filling Bool) (bytes : Bytes) : Prop :=
  ∀ b : Buffer, b.Bounded → ∀ world,
    Program.wp (alone self allowed) (writer.run b)
      (Filled allowed b bytes world) world

theorem Fills.put (bytes : Bytes) : Fills self allowed (bPut bytes) bytes := by
  intro b bounded world
  refine Program.wp_mono (bPut_wp bounded bytes world) ?_
  rintro ⟨ok, b'⟩ after ⟨disk, limit, data, fits, succeeds⟩
  dsimp only at data fits limit
  refine ⟨disk, limit, ?_, ?_, succeeds⟩
  · have within := bounded.within
    cases ok with
    | true =>
        have := fits rfl
        simp [data]
        omega
    | false => simpa [data] using within
  · rintro rfl
    simpa using data

theorem Fills.seq {first second : Filling Bool} {front back : Bytes}
    (firstFills : Fills self allowed first front)
    (secondFills : Fills self allowed second back) :
    Fills self allowed (do if ← first then second else return false)
      (front ++ back) := by
  intro b bounded world
  rw [StateT.run_bind, Program.wp_bind]
  refine Program.wp_mono (firstFills b bounded world) ?_
  rintro ⟨ok, middle⟩ between ⟨disk, limit, within, data, succeeds⟩
  dsimp only at limit within data succeeds
  cases ok with
  | false =>
      refine ⟨disk, limit, within, by simp, ?_⟩
      intro allocates fits
      rw [List.length_append] at fits
      exact absurd (succeeds allocates (by omega)) (by simp)
  | true =>
      have middleBounded : middle.Bounded := by
        refine ⟨?_, ?_⟩
        · rw [limit]
          exact within
        · rw [limit]
          exact bounded.small
      refine Program.wp_mono (secondFills middle middleBounded between) ?_
      rintro ⟨finished, final⟩ after ⟨disk', limit', within', data',
        succeeds'⟩
      dsimp only at limit' within' data' succeeds'
      refine ⟨disk'.trans disk, limit'.trans limit, limit ▸ within', ?_, ?_⟩
      · intro done
        rw [data' done, data rfl, List.append_assoc]
      · intro allocates fits
        rw [List.length_append] at fits
        refine succeeds' allocates ?_
        rw [data rfl, limit, List.length_append]
        omega

theorem Fills.nothing : Fills self allowed (return true) [] := by
  intro b bounded world
  exact ⟨rfl, rfl, bounded.within, fun _ => (List.append_nil _).symm,
    fun _ _ => rfl⟩

theorem Fills.allOf {writers : List (Filling Bool)} {pieces : List Bytes}
    (each : List.Forall₂ (Fills self allowed) writers pieces) :
    Fills self allowed (allOf writers) pieces.flatten := by
  induction each with
  | nil => exact Fills.nothing
  | cons first rest ih => exact first.seq ih

theorem Fills.u16 {x : Nat} (small : x ≤ 0xFFFF) :
    Fills self allowed (bU16 x) (u16Layout x) := by
  have layout : u16Layout x = [UInt8.ofNat (x >>> 8), UInt8.ofNat x] := by
    simp [u16Layout, BigEndian.encode, Nat.shiftRight_eq_div_pow]
  rw [bU16, if_pos small, layout]
  exact Fills.put _

theorem Fills.i64 (x : Int64) : Fills self allowed (bI64 x) (i64Layout x) := by
  rw [bI64, i64Layout_eq_shifts]
  exact Fills.put _

theorem Fills.string {s : Bytes} (nonempty : s ≠ [])
    (small : s.length ≤ 0xFFFF) :
    Fills self allowed (bString s) (stringLayout s) := by
  have present : s.length ≠ 0 := by
    simpa [List.length_eq_zero_iff] using nonempty
  rw [bString, if_pos present, stringLayout]
  exact (Fills.u16 small).seq (Fills.put s)

end Appending

end RymgaLoader.Native
