import RymgaLoader.Native.Jni
import RymgaLoader.Native.TextScan

/-!
# The transcoders of the JNI bridge

`chars_utf8` and `new_utf8` of `rymga_loader_jni.c` with their indices, their
32-bit code points and their buffers, while memory is granted: a read outside
the input, a write behind the buffer and a loop that does not end are faults.
An object is smaller than half the range of `size_t`, so the size of the
buffer of `new_utf8` does not wrap.
-/

namespace RymgaLoader.Native

open Protocol Wire
open TextScan (ok_bind)

namespace Transcoders

/-- A write to the next place of a buffer. -/
def push {α : Type} (capacity : Nat) (output : List α) (value : α) :
    Except Fault (List α) :=
  if output.length < capacity then .ok (output ++ [value])
  else .error .outOfBounds

def loadUnit (input : JavaString) (i : Nat) : Except Fault UInt16 :=
  match input[i]? with
  | none => .error .outOfBounds
  | some unit => .ok unit

def putCodePoint (capacity : Nat) (output : Bytes) (codepoint : UInt32) :
    Except Fault Bytes :=
  if codepoint ≤ 0x7f then push capacity output codepoint.toUInt8
  else if codepoint ≤ 0x7ff then do
    let output ← push capacity output
      ((0xc0 : UInt32) ||| codepoint >>> 6).toUInt8
    push capacity output ((0x80 : UInt32) ||| (codepoint &&& 0x3f)).toUInt8
  else if codepoint ≤ 0xffff then do
    let output ← push capacity output
      ((0xe0 : UInt32) ||| codepoint >>> 12).toUInt8
    let output ← push capacity output
      ((0x80 : UInt32) ||| (codepoint >>> 6 &&& 0x3f)).toUInt8
    push capacity output ((0x80 : UInt32) ||| (codepoint &&& 0x3f)).toUInt8
  else do
    let output ← push capacity output
      ((0xf0 : UInt32) ||| codepoint >>> 18).toUInt8
    let output ← push capacity output
      ((0x80 : UInt32) ||| (codepoint >>> 12 &&& 0x3f)).toUInt8
    let output ← push capacity output
      ((0x80 : UInt32) ||| (codepoint >>> 6 &&& 0x3f)).toUInt8
    push capacity output ((0x80 : UInt32) ||| (codepoint &&& 0x3f)).toUInt8

/-- The code point of a surrogate pair, where one stands; the next unit is
read only behind a high surrogate that is not the last unit. -/
def pairAt (input : JavaString) (length i : Nat) (codepoint : UInt32) :
    Except Fault (Option UInt32) :=
  if codepoint ≥ 0xd800 ∧ codepoint ≤ 0xdbff ∧ i + 1 < length then do
    let next ← loadUnit input (i + 1)
    if next.toUInt32 ≥ 0xdc00 ∧ next.toUInt32 ≤ 0xdfff then
      return some ((0x10000 : UInt32) + ((codepoint - 0xd800) <<< 10) +
        (next.toUInt32 - 0xdc00))
    else return none
  else return none

/-- The loop of `chars_utf8` with the turns it may take. -/
def charsLoop (input : JavaString) (length capacity : Nat) :
    Nat → Nat → Bytes → Except Fault (Option Bytes)
  | 0, i, output => if i < length then .error .endless else return some output
  | turns + 1, i, output =>
      if i < length then do
        let codepoint := (← loadUnit input i).toUInt32
        match ← pairAt input length i codepoint with
        | some codepoint =>
            let output ← putCodePoint capacity output codepoint
            charsLoop input length capacity turns (i + 2) output
        | none =>
            if codepoint ≥ 0xd800 ∧ codepoint ≤ 0xdfff then return none
            else
              let output ← putCodePoint capacity output codepoint
              charsLoop input length capacity turns (i + 1) output
      else return some output

def charsUtf8 (input : JavaString) (length : Int32) :
    Except Fault (Option Bytes) :=
  let size := length.toInt.toNat
  if length < 0 ∨ size > (sizeRange - 1 - 1) / 3 then return none
  else charsLoop input size (sizeAdd (sizeMul size 3) 1) size 0 []

def putUnits (capacity : Nat) (output : JavaString) (codepoint : UInt32) :
    Except Fault JavaString :=
  if codepoint ≤ 0xffff then push capacity output codepoint.toUInt16
  else do
    let codepoint := codepoint - 0x10000
    let output ← push capacity output
      ((0xd800 : UInt32) ||| codepoint >>> 10).toUInt16
    push capacity output
      ((0xdc00 : UInt32) ||| (codepoint &&& 0x3ff)).toUInt16

def rejected (extra : Nat) (codepoint : UInt32) : Bool :=
  (extra = 1 ∧ codepoint < 0x80) ∨ (extra = 2 ∧ codepoint < 0x800) ∨
    (extra = 3 ∧ codepoint < 0x10000) ∨ codepoint > 0x10ffff ∨
    (codepoint ≥ 0xd800 ∧ codepoint ≤ 0xdfff)

/-- The code point at an offset and the offset behind it, unless the text is
refused there. -/
def codePointAt (input : Bytes) (bytes offset : Nat) :
    Except Fault (Option (Nat × UInt32)) := do
  match ← TextScan.sequence input bytes offset with
  | none => return none
  | some (extra, offset, codepoint) =>
      if rejected extra codepoint then return none
      else return some (offset, codepoint)

/-- The loop of `new_utf8` with the turns it may take. -/
def unitsLoop (input : Bytes) (bytes capacity : Nat) :
    Nat → Nat → JavaString → Except Fault (Option JavaString)
  | 0, offset, output =>
      if offset < bytes then .error .endless else return some output
  | turns + 1, offset, output =>
      if offset < bytes then do
        match ← codePointAt input bytes offset with
        | none => return none
        | some (offset, codepoint) =>
            let output ← putUnits capacity output codepoint
            unitsLoop input bytes capacity turns offset output
      else return some output

/-- `new_utf8` on a pointer to an object: the units and the length that are
given to `NewString`, unless the text is refused.  The loop may read the bytes
that `strlen` has counted. -/
def newUtf8 (object : Option Bytes) :
    Except Fault (Option (JavaString × Int32)) :=
  match object with
  | none => return none
  | some object => do
      let bytes ← TextScan.strlen object (object.length + 1) 0
      match ← unitsLoop (object.take bytes) bytes (bytes + 1) bytes 0 [] with
      | none => return none
      | some output => return some (output, Int32.ofNat output.length)

theorem push_eq {α : Type} {capacity : Nat} {output : List α}
    (room : output.length < capacity) (value : α) :
    push capacity output value = .ok (output ++ [value]) := if_pos room

/-- One of several writes for which there is room. -/
private theorem push_bind {α β : Type} {capacity : Nat} {output : List α}
    {value : α} {later : Nat} (room : output.length + (later + 1) ≤ capacity)
    (next : List α → Except Fault β) :
    (push capacity output value >>= next) = next (output ++ [value]) ∧
      (output ++ [value]).length + later ≤ capacity := by
  rw [push_eq (by omega), List.length_append, List.length_singleton]
  exact ⟨rfl, by omega⟩

private theorem shifted_byte (mark codepoint shift : UInt32) :
    (mark ||| codepoint >>> shift).toUInt8 = UInt8.ofNat
      (mark.toNat ||| codepoint.toNat >>> (shift.toNat % 32)) := by
  rw [← UInt32.toNat_shiftRight, ← UInt32.toNat_or]
  rfl

private theorem masked_byte (mark codepoint mask : UInt32) :
    (mark ||| (codepoint &&& mask)).toUInt8 = UInt8.ofNat
      (mark.toNat ||| (codepoint.toNat &&& mask.toNat)) := by
  rw [← UInt32.toNat_and, ← UInt32.toNat_or]
  rfl

private theorem middle_byte (mark codepoint shift mask : UInt32) :
    (mark ||| (codepoint >>> shift &&& mask)).toUInt8 = UInt8.ofNat
      (mark.toNat |||
        (codepoint.toNat >>> (shift.toNat % 32) &&& mask.toNat)) := by
  rw [masked_byte, UInt32.toNat_shiftRight]

theorem putCodePoint_eq {capacity : Nat} {output : Bytes} {codepoint : UInt32}
    (room : output.length + (Native.putCodePoint codepoint.toNat).length ≤
      capacity) :
    putCodePoint capacity output codepoint =
      .ok (output ++ Native.putCodePoint codepoint.toNat) := by
  revert room
  unfold putCodePoint Native.putCodePoint
  simp only [UInt32.le_iff_toNat_le, UInt32.reduceToNat]
  split
  · intro room
    exact push_eq room _
  split
  · intro room
    obtain ⟨first, room⟩ := @push_bind _ _ _ _ _ 1 room _
    rw [first, push_eq room, List.append_assoc, shifted_byte, masked_byte]
    rfl
  split
  · intro room
    obtain ⟨first, room⟩ := @push_bind _ _ _ _ _ 2 room _
    obtain ⟨second, room⟩ := @push_bind _ _ _ _ _ 1 room _
    rw [first, second, push_eq room, List.append_assoc, List.append_assoc,
      shifted_byte, middle_byte, masked_byte]
    rfl
  · intro room
    obtain ⟨first, room⟩ := @push_bind _ _ _ _ _ 3 room _
    obtain ⟨second, room⟩ := @push_bind _ _ _ _ _ 2 room _
    obtain ⟨third, room⟩ := @push_bind _ _ _ _ _ 1 room _
    rw [first, second, third, push_eq room, List.append_assoc,
      List.append_assoc, List.append_assoc, shifted_byte, middle_byte,
      middle_byte, masked_byte]
    rfl

theorem length_putCodePoint (codepoint : Nat) :
    (Native.putCodePoint codepoint).length ≤ 4 ∧
      (codepoint ≤ 0xffff → (Native.putCodePoint codepoint).length ≤ 3) := by
  unfold Native.putCodePoint
  split
  · simp
  split
  · simp
  split
  · simp
  · rename_i large
    exact ⟨by simp, fun small => absurd small large⟩

theorem loadUnit_eq {input : JavaString} {i : Nat} {unit : UInt16}
    {rest : JavaString} (placed : input.drop i = unit :: rest) :
    loadUnit input i = .ok unit := by
  have found : input[i]? = some unit := by
    rw [← List.head?_drop, placed, List.head?_cons]
  simp [loadUnit, found]

private theorem drop_next {α : Type} {values rest : List α} {i : Nat}
    {value : α} (placed : values.drop i = value :: rest) :
    values.drop (i + 1) = rest ∧
      values.length = i + 1 + rest.length := by
  have inside : i < values.length := by
    by_contra outside
    rw [List.drop_eq_nil_of_le (by omega)] at placed
    cases placed
  have counted := congrArg List.length placed
  rw [List.length_drop, List.length_cons] at counted
  refine ⟨?_, by omega⟩
  rw [← List.drop_drop, placed, List.drop_succ_cons, List.drop_zero]

/-- The arithmetic on a pair of surrogates does not wrap. -/
private theorem pair_toNat {unit next : UInt16}
    (high : 0xd800 ≤ unit.toNat ∧ unit.toNat ≤ 0xdbff)
    (low : 0xdc00 ≤ next.toNat ∧ next.toNat ≤ 0xdfff) :
    ((0x10000 : UInt32) + ((unit.toUInt32 - 0xd800) <<< 10) +
        (next.toUInt32 - 0xdc00)).toNat =
      0x10000 + (unit.toNat - 0xd800) <<< 10 + (next.toNat - 0xdc00) := by
  have upper : (unit.toUInt32 - 0xd800).toNat = unit.toNat - 0xd800 :=
    UInt32.toNat_sub_of_le _ _ (UInt32.le_iff_toNat_le.mpr high.1)
  have lower : (next.toUInt32 - 0xdc00).toNat = next.toNat - 0xdc00 :=
    UInt32.toNat_sub_of_le _ _ (UInt32.le_iff_toNat_le.mpr low.1)
  rw [UInt32.toNat_add, UInt32.toNat_add, UInt32.toNat_shiftLeft, upper,
    lower]
  simp only [UInt32.reduceToNat, Nat.reduceMod, Nat.shiftLeft_eq]
  omega

theorem pairAt_last {input : JavaString} {i : Nat} {unit : UInt16}
    (placed : input.drop i = [unit]) :
    pairAt input input.length i unit.toUInt32 = .ok none := by
  obtain ⟨-, counted⟩ := drop_next placed
  have last : ¬i + 1 < input.length := by
    simp only [List.length_nil] at counted
    omega
  simp [pairAt, last, pure, Except.pure]

theorem pairAt_eq {input units : JavaString} {i : Nat} {unit next : UInt16}
    (placed : input.drop i = unit :: next :: units) :
    ∃ pair, pairAt input input.length i unit.toUInt32 = .ok pair ∧
      pair.map UInt32.toNat =
        if 0xd800 ≤ unit.toNat ∧ unit.toNat ≤ 0xdbff ∧
            0xdc00 ≤ next.toNat ∧ next.toNat ≤ 0xdfff then
          some (0x10000 + (unit.toNat - 0xd800) <<< 10 +
            (next.toNat - 0xdc00))
        else none := by
  obtain ⟨behind, counted⟩ := drop_next placed
  have inside : i + 1 < input.length := by
    rw [List.length_cons] at counted
    omega
  unfold pairAt
  simp only [ge_iff_le, UInt32.le_iff_toNat_le, UInt32.reduceToNat,
    UInt16.toNat_toUInt32, inside, and_true]
  by_cases high : 0xd800 ≤ unit.toNat ∧ unit.toNat ≤ 0xdbff
  · rw [if_pos high, loadUnit_eq behind, ok_bind]
    by_cases low : 0xdc00 ≤ next.toNat ∧ next.toNat ≤ 0xdfff
    · rw [if_pos low, if_pos ⟨high.1, high.2, low⟩]
      exact ⟨_, rfl, congrArg some (pair_toNat high low)⟩
    · rw [if_neg low, if_neg fun pair => low pair.2.2]
      exact ⟨none, rfl, rfl⟩
  · rw [if_neg high, if_neg fun pair => high ⟨pair.1, pair.2.1⟩]
    exact ⟨none, rfl, rfl⟩

/-- With three bytes of room for each unit that is left the loop runs to its
end and gives the answer of `charsUtf8`. -/
theorem charsLoop_eq {input : JavaString} {capacity turns i : Nat}
    {output : Bytes} (enough : input.length - i ≤ turns)
    (room : output.length + 3 * (input.length - i) ≤ capacity) :
    charsLoop input input.length capacity turns i output =
      .ok ((Native.charsUtf8 (input.drop i)).map (output ++ ·)) := by
  induction turns generalizing i output with
  | zero =>
      have done : input.length ≤ i := by omega
      rw [charsLoop, if_neg (by omega), List.drop_eq_nil_of_le done]
      simp [Native.charsUtf8, pure, Except.pure]
  | succ turns ih =>
      have continues {scalar : UInt32} {width : Nat} (wide : 1 ≤ width)
          (inside : i + width ≤ input.length)
          (short : (Native.putCodePoint scalar.toNat).length ≤ 3 * width) :
          (putCodePoint capacity output scalar >>= fun output =>
            charsLoop input input.length capacity turns (i + width) output) =
          .ok (((Native.charsUtf8 (input.drop (i + width))).map
            (Native.putCodePoint scalar.toNat ++ ·)).map (output ++ ·)) := by
        rw [putCodePoint_eq (by omega), ok_bind, ih (by omega) (by
          rw [List.length_append]
          omega), Option.map_map]
        simp only [Function.comp_def, List.append_assoc]
      rw [charsLoop]
      cases placed : input.drop i with
      | nil =>
          have done : input.length ≤ i := List.drop_eq_nil_iff.mp placed
          rw [if_neg (by omega)]
          simp [Native.charsUtf8, pure, Except.pure]
      | cons unit units =>
          obtain ⟨behind, counted⟩ := drop_next placed
          have small : (Native.putCodePoint unit.toUInt32.toNat).length ≤
              3 * 1 := (length_putCodePoint _).2 (by
            have bound := unit.toNat_lt
            rw [UInt16.toNat_toUInt32]
            omega)
          have alone := continues (Nat.le_refl 1) (by omega) small
          rw [behind] at alone
          rw [if_pos (by omega), loadUnit_eq placed, ok_bind]
          simp only [ge_iff_le, UInt32.le_iff_toNat_le, UInt32.reduceToNat,
            UInt16.toNat_toUInt32] at alone ⊢
          cases units with
          | nil =>
              rw [pairAt_last placed, ok_bind, Native.charsUtf8]
              simp only
              split
              · rfl
              · rw [alone]
                simp [Native.charsUtf8]
          | cons next units =>
              obtain ⟨pair, found, image⟩ := pairAt_eq placed
              rw [found, ok_bind, Native.charsUtf8]
              cases pair with
              | none =>
                  have unpaired : ¬(0xd800 ≤ unit.toNat ∧
                      unit.toNat ≤ 0xdbff ∧ 0xdc00 ≤ next.toNat ∧
                      next.toNat ≤ 0xdfff) := by
                    intro paired
                    rw [if_pos paired] at image
                    cases image
                  simp only [unpaired, if_false]
                  split
                  · rfl
                  · exact alone
              | some scalar =>
                  have paired : 0xd800 ≤ unit.toNat ∧
                      unit.toNat ≤ 0xdbff ∧ 0xdc00 ≤ next.toNat ∧
                      next.toNat ≤ 0xdfff := by
                    by_contra unpaired
                    rw [if_neg unpaired] at image
                    cases image
                  rw [if_pos paired] at image ⊢
                  have code := Option.some.inj image
                  obtain ⟨behind', counted'⟩ := drop_next behind
                  have both := @continues scalar 2 (by omega) (by omega)
                    ((length_putCodePoint _).1.trans (by omega))
                  rw [behind', code] at both
                  exact both

theorem putUnits_eq {capacity : Nat} {output : JavaString} {scalar : Char}
    {codepoint : UInt32} (code : codepoint.toNat = scalar.toNat)
    (room : output.length + (Unicode.utf16Units scalar).length ≤ capacity) :
    putUnits capacity output codepoint =
      .ok (output ++ Unicode.utf16Units scalar) := by
  have bounds := Unicode.scalar_bounds scalar
  revert room
  unfold putUnits Unicode.utf16Units
  simp only [UInt32.le_iff_toNat_le, UInt32.reduceToNat, code]
  by_cases small : scalar.toNat < 0x10000
  · rw [if_pos small, if_pos (by omega)]
    intro room
    rw [push_eq room, ← code]
    rfl
  · rw [if_neg small, if_neg (by omega)]
    intro room
    have offset : (codepoint - 0x10000).toNat = scalar.toNat - 0x10000 := by
      rw [← code]
      exact UInt32.toNat_sub_of_le _ _ (UInt32.le_iff_toNat_le.mpr (by
        simp only [UInt32.reduceToNat]
        omega))
    have upper : ((0xd800 : UInt32) ||| (codepoint - 0x10000) >>> 10).toNat =
        0xD800 + (scalar.toNat - 0x10000) / 0x400 := by
      have joined := @or_eq_add 54 ((scalar.toNat - 0x10000) / 0x400) 10
        (by omega)
      rw [UInt32.toNat_or, UInt32.toNat_shiftRight, offset]
      simp only [UInt32.reduceToNat, Nat.reduceMod, Nat.shiftRight_eq_div_pow]
      exact joined
    have lower : ((0xdc00 : UInt32) ||| (codepoint - 0x10000 &&& 0x3ff)).toNat =
        0xDC00 + (scalar.toNat - 0x10000) % 0x400 := by
      have masked : scalar.toNat - 0x10000 &&& 0x3ff =
          (scalar.toNat - 0x10000) % 0x400 :=
        Nat.and_two_pow_sub_one_eq_mod _ 10
      have joined := @or_eq_add 55 ((scalar.toNat - 0x10000) % 0x400) 10
        (Nat.mod_lt _ (by decide))
      rw [UInt32.toNat_or, UInt32.toNat_and, offset]
      simp only [UInt32.reduceToNat, masked]
      exact joined
    obtain ⟨first, room⟩ := @push_bind _ _ _ _ _ 1 room _
    rw [first, push_eq room, List.append_assoc, ← upper, ← lower]
    rfl

/-- The judgement of `rejected` on a number. -/
def refusedCodePoint (extra cp : Nat) : Bool :=
  (extra = 1 ∧ cp < 0x80) ∨ (extra = 2 ∧ cp < 0x800) ∨
    (extra = 3 ∧ cp < 0x10000) ∨ cp > 0x10ffff ∨
    (cp ≥ 0xd800 ∧ cp ≤ 0xdfff)

theorem rejected_eq (extra : Nat) (codepoint : UInt32) :
    rejected extra codepoint = refusedCodePoint extra codepoint.toNat := by
  simp only [rejected, refusedCodePoint, UInt32.lt_iff_toNat_lt,
    UInt32.le_iff_toNat_le, gt_iff_lt, ge_iff_le, UInt32.reduceToNat]

theorem refusedCodePoint_iff {extra least cp : Nat}
    (shortest : Shortest extra least) :
    refusedCodePoint extra cp = true ↔ Unicode.scalar? least cp = none := by
  unfold Shortest at shortest
  rw [Unicode.scalar?_eq_none_iff]
  simp only [refusedCodePoint, decide_eq_true_eq, Nat.isValidChar]
  omega

private theorem judges {extra least cp length : Nat} {rest : Bytes}
    (shortest : Shortest extra least) :
    (if refusedCodePoint extra cp then none
      else some (length - rest.length, cp)) =
      ((Unicode.scalar? least cp).map (·, rest)).bind fun decoded =>
        some (length - decoded.2.length, decoded.1.toNat) := by
  cases found : Unicode.scalar? least cp with
  | none => rw [if_pos ((refusedCodePoint_iff shortest).mpr found)]; rfl
  | some scalar =>
      have kept : ¬refusedCodePoint extra cp = true := by
        rw [refusedCodePoint_iff shortest, found]
        nofun
      obtain ⟨-, code⟩ := Unicode.scalar?_eq_some_iff.mp found
      rw [if_neg kept, ← code]
      rfl

/-- Inside the text a turn has no fault and is a step of the strict
decoder. -/
theorem codePointAt_eq {input : Bytes} {offset : Nat}
    (inside : offset < input.length) :
    ∃ result, codePointAt input input.length offset = .ok result ∧
      result.map (Prod.map id UInt32.toNat) =
        (Unicode.decodeChar (input.drop offset)).map fun decoded =>
          (input.length - decoded.2.length, decoded.1.toNat) := by
  obtain ⟨found, scanned, image⟩ := TextScan.sequence_eq inside
  have step := leadStep_eq (fun shortest => @judges _ _ _ input.length _ shortest)
    (input.drop offset)
  have filtered : (found.map
      (Prod.map id (Prod.map id UInt32.toNat))).bind
        (fun sequence =>
          if refusedCodePoint sequence.1 sequence.2.2 then none
          else some (sequence.2.1, sequence.2.2)) =
      (Unicode.decodeChar (input.drop offset)).map fun decoded =>
        (input.length - decoded.2.length, decoded.1.toNat) := by
    rw [image, leadStep_bind, Option.map_eq_bind]
    exact step
  rw [codePointAt, scanned, ok_bind, ← filtered]
  cases found with
  | none => exact ⟨none, rfl, rfl⟩
  | some sequence =>
      obtain ⟨extra, next, codepoint⟩ := sequence
      simp only [rejected_eq, Option.map_some, Option.bind_some, Prod.map,
        id_eq]
      split
      · exact ⟨none, rfl, rfl⟩
      · exact ⟨some (next, codepoint), rfl, rfl⟩

/-- With a unit of room for each byte that is left the loop runs to its end and
gives the units of the text. -/
theorem unitsLoop_eq {input : Bytes} {capacity turns offset : Nat}
    {output : JavaString} (enough : input.length - offset ≤ turns)
    (room : output.length + (input.length - offset) ≤ capacity) :
    unitsLoop input input.length capacity turns offset output =
      .ok ((Unicode.decodeWithin turns (input.drop offset)).map
        fun scalars => output ++ Unicode.utf16Encode scalars) := by
  induction turns generalizing offset output with
  | zero =>
      have done : input.length ≤ offset := by omega
      rw [unitsLoop, if_neg (by omega), List.drop_eq_nil_of_le done]
      simp [Unicode.decodeWithin, Unicode.utf16Encode, pure, Except.pure]
  | succ turns ih =>
      by_cases inside : offset < input.length
      · have placed : input.drop offset =
            input[offset] :: input.drop (offset + 1) :=
          List.drop_eq_getElem_cons inside
        obtain ⟨result, scanned, image⟩ := codePointAt_eq inside
        rw [unitsLoop, if_pos inside, scanned, ok_bind]
        cases decoded : Unicode.decodeChar (input.drop offset) with
        | none =>
            rw [decoded, Option.map_none, Option.map_eq_none_iff] at image
            rw [image]
            rw [placed] at decoded ⊢
            rw [Unicode.decodeWithin, decoded]
            rfl
        | some first =>
            obtain ⟨scalar, rest⟩ := first
            rw [decoded, Option.map_some, Option.map_eq_some_iff] at image
            dsimp only at image
            obtain ⟨⟨next, codepoint⟩, rfl, same⟩ := image
            obtain ⟨rfl, code⟩ := Prod.mk.inj same
            have split := Unicode.decodeChar_sound decoded
            have counted := congrArg List.length split
            rw [List.length_append, List.length_drop] at counted
            have positive := List.length_pos_iff.mpr
              (Unicode.utf8EncodeChar_ne_nil scalar)
            have narrow := (Unicode.length_utf16Units_le scalar).1
            have tail : input.drop (input.length - rest.length) = rest := by
              have suffix : rest <:+ input := by
                have dropped := List.drop_suffix offset input
                rw [split] at dropped
                exact (List.suffix_append _ rest).trans dropped
              exact (List.suffix_iff_eq_drop.mp suffix).symm
            have later := @ih (input.length - rest.length)
              (output ++ Unicode.utf16Units scalar) (by omega) (by
                rw [List.length_append]
                omega)
            rw [tail] at later
            simp only
            rw [putUnits_eq code (by omega), ok_bind, later]
            rw [placed] at decoded ⊢
            rw [Unicode.decodeWithin, decoded, Option.map_map]
            simp [Function.comp_def, Unicode.utf16Encode]
      · have done : input.length ≤ offset := by omega
        rw [unitsLoop, if_neg inside, List.drop_eq_nil_of_le done]
        simp [Unicode.decodeWithin, Unicode.utf16Encode, pure, Except.pure]

/-- The size of the buffer does not wrap for the length of an array. -/
theorem buffer_size {input : JavaString} {length : Int32}
    (counted : length.toInt = input.length) :
    sizeAdd (sizeMul input.length 3) 1 = 3 * input.length + 1 := by
  have bound := length.toInt_lt
  have product : input.length * 3 < sizeRange := by
    unfold sizeRange
    omega
  rw [sizeMul, Nat.mod_eq_of_lt product, sizeAdd, Nat.mod_eq_of_lt (by
    unfold sizeRange
    omega)]
  omega

theorem charsUtf8_eq {input : JavaString} {length : Int32}
    (counted : length.toInt = input.length) :
    charsUtf8 input length =
      .ok ((Unicode.utf16Decode input).map Unicode.encode) := by
  have bound := length.toInt_lt
  have size : length.toInt.toNat = input.length := by omega
  have admitted : ¬(length < 0 ∨
      input.length > (sizeRange - 1 - 1) / 3) := by
    rw [Int32.lt_iff_toInt_lt, counted]
    unfold sizeRange
    simp only [Int32.reduceToInt]
    omega
  unfold charsUtf8
  simp only [size]
  rw [if_neg admitted, buffer_size counted, charsLoop_eq (Nat.sub_le _ _) (by
    simp only [List.length_nil]
    omega), List.drop_zero, Native.charsUtf8_eq, Option.map_map]
  rfl

theorem newUtf8_eq {text : Bytes} (clean : (0 : UInt8) ∉ text)
    (beyond : Bytes) :
    newUtf8 (some (text ++ 0 :: beyond)) =
      .ok ((Unicode.decode text).map fun scalars =>
        (Unicode.utf16Encode scalars,
          Int32.ofNat (Unicode.utf16Encode scalars).length)) := by
  have counted := @TextScan.strlen_eq text beyond clean
    ((text ++ 0 :: beyond).length + 1) [] text rfl (by
      rw [List.length_append]
      omega)
  rw [List.length_nil] at counted
  simp only [newUtf8, counted, ok_bind, List.take_left]
  rw [unitsLoop_eq (Nat.sub_le _ _) (by
    simp only [List.length_nil]
    omega), ok_bind, List.drop_zero, Unicode.decode]
  cases Unicode.decodeWithin text.length text with
  | none => rfl
  | some scalars => rfl

theorem zero_mem_encode_iff (scalars : List Char) :
    (0 : UInt8) ∈ Unicode.encode scalars ↔
      (0 : UInt16) ∈ Unicode.utf16Encode scalars := by
  have bytes : (0 : UInt8) ∈ Unicode.encode scalars ↔
      ∃ scalar ∈ scalars, 0 = scalar.toNat :=
    Unicode.utf8_asciiTransparent.mem_flatMap_iff (by decide)
  have units : (0 : UInt16) ∈ Unicode.utf16Encode scalars ↔
      ∃ scalar ∈ scalars, 0 = scalar.toNat :=
    Unicode.utf16_asciiTransparent.mem_flatMap_iff (by decide)
  rw [bytes, units]

private theorem decode_isSome_iff {text : Bytes} :
    (Unicode.decode text).isSome ↔ ∃ scalars, text = Unicode.encode scalars := by
  rw [Option.isSome_iff_exists]
  exact exists_congr fun scalars => Unicode.decode_eq_some_iff

/-- The transcoders of the bridge have no fault and are inverse to each other.
An array has as many units as a `jsize` can count. -/
theorem transcoders_inverse :
    (∀ (units : JavaString) (length : Int32), length.toInt = units.length →
      sizeAdd (sizeMul units.length 3) 1 = 3 * units.length + 1 ∧
        ∃ result, charsUtf8 units length = .ok result ∧
          (result = none ↔ Unicode.Unpaired units) ∧
          ∀ bytes, result = some bytes →
            bytes.length ≤ 3 * units.length ∧
              ∃ scalars, units = Unicode.utf16Encode scalars ∧
                bytes = Unicode.encode scalars) ∧
      (∀ text beyond : Bytes, (0 : UInt8) ∉ text →
        ∃ result, newUtf8 (some (text ++ 0 :: beyond)) = .ok result ∧
          (result.isSome ↔ ∃ scalars, text = Unicode.encode scalars) ∧
          ∀ units length, result = some (units, length) →
            units.length ≤ text.length ∧
              length = Int32.ofNat units.length ∧
              ∃ scalars, text = Unicode.encode scalars ∧
                units = Unicode.utf16Encode scalars) ∧
      (∀ (units : JavaString) (length : Int32), length.toInt = units.length →
        (0 : UInt16) ∉ units → ¬Unicode.Unpaired units →
          ∃ bytes, charsUtf8 units length = .ok (some bytes) ∧
            ∀ beyond, newUtf8 (some (bytes ++ 0 :: beyond)) =
              .ok (some (units, length))) ∧
      ∀ scalars : List Char, (0 : UInt8) ∉ Unicode.encode scalars →
        ∃ units, (∀ beyond,
            newUtf8 (some (Unicode.encode scalars ++ 0 :: beyond)) =
              .ok (some (units, Int32.ofNat units.length))) ∧
          ∀ length : Int32, length.toInt = units.length →
            charsUtf8 units length = .ok (some (Unicode.encode scalars)) := by
  refine ⟨?_, ?_, ?_, ?_⟩
  · intro units length counted
    refine ⟨buffer_size counted, _, charsUtf8_eq counted, ?_, ?_⟩
    · rw [Option.map_eq_none_iff, Unicode.utf16Decode_eq_none_iff]
    · intro bytes converted
      obtain ⟨scalars, decoded, rfl⟩ := Option.map_eq_some_iff.mp converted
      rw [Unicode.utf16Decode_eq_some_iff] at decoded
      subst decoded
      exact ⟨Unicode.length_encode_le scalars, scalars, rfl, rfl⟩
  · intro text beyond clean
    refine ⟨_, newUtf8_eq clean beyond, ?_, ?_⟩
    · rw [Option.isSome_map, decode_isSome_iff]
    · intro units length converted
      obtain ⟨scalars, decoded, same⟩ := Option.map_eq_some_iff.mp converted
      rw [Unicode.decode_eq_some_iff] at decoded
      obtain ⟨rfl, rfl⟩ := Prod.mk.inj same
      subst decoded
      exact ⟨Unicode.length_utf16Encode_le scalars, rfl, scalars, rfl, rfl⟩
  · intro units length counted clean paired
    rw [← Unicode.utf16Decode_eq_none_iff, ← ne_eq,
      Option.ne_none_iff_exists'] at paired
    obtain ⟨scalars, decoded⟩ := paired
    refine ⟨Unicode.encode scalars, ?_, ?_⟩
    · rw [charsUtf8_eq counted, decoded]
      rfl
    · intro beyond
      rw [Unicode.utf16Decode_eq_some_iff] at decoded
      subst decoded
      rw [← zero_mem_encode_iff] at clean
      have exact : Int32.ofNat (Unicode.utf16Encode scalars).length =
          length := by
        have bound := length.toInt_lt
        rw [← Int32.toInt_inj, Int32.toInt_ofNat_of_lt (by omega), counted]
      rw [newUtf8_eq clean, Unicode.decode_eq_some_iff.mpr rfl,
        Option.map_some, exact]
  · intro scalars clean
    refine ⟨Unicode.utf16Encode scalars, ?_, ?_⟩
    · intro beyond
      rw [newUtf8_eq clean, Unicode.decode_eq_some_iff.mpr rfl]
      rfl
    · intro length counted
      rw [charsUtf8_eq counted, Unicode.utf16Decode_encode]
      rfl

theorem transcoders_inverse_pair :
    ∃ bytes, charsUtf8 [0xd83d, 0xde00] 2 = .ok (some bytes) ∧
      newUtf8 (some (bytes ++ [0])) = .ok (some ([0xd83d, 0xde00], 2)) := by
  obtain ⟨bytes, written, back⟩ :=
    transcoders_inverse.2.2.1 [0xd83d, 0xde00] 2 (by decide) (by decide) (by
      rw [← Unicode.utf16Decode_eq_none_iff]
      decide)
  exact ⟨bytes, written, back []⟩

end Transcoders

end RymgaLoader.Native
