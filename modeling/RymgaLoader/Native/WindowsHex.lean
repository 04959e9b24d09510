import RymgaLoader.Native.Plugins
import RymgaLoader.Native.TextScan

/-!
# Hexadecimal text on Windows

`hex_encode`, `hex_digit` and `hex_decode` of `rymga_platform_windows.c` with
their indices and buffers: a read outside an object and a write behind a
buffer are faults.  On buffers that are large enough there is none, and the
two functions are the hexadecimal writer and the strict reader.
-/

namespace RymgaLoader.Native.Windows

open TextScan (ok_bind)

/-- A write through a pointer to a buffer. -/
def store (buffer : Bytes) (i : Nat) (byte : UInt8) : Except Fault Bytes :=
  if i < buffer.length then .ok (buffer.set i byte) else .error .outOfBounds

def digits : Bytes := ascii
  ['0', '1', '2', '3', '4', '5', '6', '7', '8', '9', 'a', 'b', 'c', 'd', 'e',
    'f']

/-- The turns of the loop of `hex_encode` that are left. -/
def encodeFrom (input : Bytes) : Nat → Nat → Bytes → Except Fault Bytes
  | 0, _, output => return output
  | left + 1, index, output => do
      let byte ← TextScan.load input index
      let high ← TextScan.load digits (byte >>> 4).toNat
      let output ← store output (index * 2) high
      let low ← TextScan.load digits (byte &&& 15).toNat
      let output ← store output (index * 2 + 1) low
      encodeFrom input left (index + 1) output

def hexEncode (input : Bytes) (length : Nat) (output : Bytes) :
    Except Fault Bytes := do
  let output ← encodeFrom input length 0 output
  store output (length * 2) 0

def hexDigit (value : UInt8) : Int :=
  if 0x30 ≤ value ∧ value ≤ 0x39 then value.toNat - 0x30
  else if 0x61 ≤ value ∧ value ≤ 0x66 then value.toNat - 0x61 + 10
  else -1

/-- The turns of the loop of `hex_decode` that are left. -/
def decodeFrom (input : Bytes) :
    Nat → Nat → Bytes → Except Fault (Option Bytes)
  | 0, _, output => return some output
  | left + 1, index, output => do
      let high := hexDigit (← TextScan.load input (index * 2))
      let low := hexDigit (← TextScan.load input (index * 2 + 1))
      if high < 0 ∨ low < 0 then return none
      else
        let output ← store output index
          (UInt8.ofNat (high.toNat <<< 4 ||| low.toNat))
        decodeFrom input left (index + 1) output

def hexDecode (input output : Bytes) : Except Fault (Option Bytes) := do
  let length ← TextScan.strlen input (input.length + 1) 0
  if length = 0 ∨ length > 510 ∨ length &&& 1 ≠ 0 then return none
  else
    match ← decodeFrom input (length / 2) 0 output with
    | none => return none
    | some output => return some (← store output (length / 2) 0)

theorem store_append {front back : Bytes} {old byte : UInt8} {i : Nat}
    (place : i = front.length) :
    store (front ++ old :: back) i byte = .ok (front ++ byte :: back) := by
  subst place
  rw [store, if_pos (by simp)]
  simp

theorem load_append {front back : Bytes} {byte : UInt8} {i : Nat}
    (place : i = front.length) :
    TextScan.load (front ++ byte :: back) i = .ok byte :=
  TextScan.load_eq (by rw [place, List.drop_left])

theorem load_digits : ∀ number : Fin 16,
    TextScan.load digits number = .ok (Hex.digit number) := by decide

theorem load_high (byte : UInt8) :
    TextScan.load digits (byte >>> 4).toNat =
      .ok (Hex.digit (byte.toNat / 16)) := by
  have small := byte.toNat_lt
  have shifted : (byte >>> 4).toNat = byte.toNat / 16 := by
    rw [UInt8.toNat_shiftRight, Nat.shiftRight_eq_div_pow]
    rfl
  rw [shifted]
  exact load_digits ⟨byte.toNat / 16, by omega⟩

theorem load_low (byte : UInt8) :
    TextScan.load digits (byte &&& 15).toNat =
      .ok (Hex.digit (byte.toNat % 16)) := by
  have masked : (byte &&& 15).toNat = byte.toNat % 16 := by
    rw [UInt8.toNat_and]
    exact Nat.and_two_pow_sub_one_eq_mod byte.toNat 4
  rw [masked]
  exact load_digits ⟨byte.toNat % 16, Nat.mod_lt _ (by decide)⟩

theorem encodeFrom_eq {front back spare : Bytes}
    (room : 2 * back.length ≤ spare.length) :
    encodeFrom (front ++ back) back.length front.length
        (Hex.encode front ++ spare) =
      .ok (Hex.encode (front ++ back) ++ spare.drop (2 * back.length)) := by
  induction back generalizing front spare with
  | nil => simp [encodeFrom, pure, Except.pure]
  | cons byte back ih =>
      rcases spare with - | ⟨first, - | ⟨second, spare⟩⟩
      · simp at room
      · simp only [List.length_cons, List.length_nil] at room
        omega
      · simp only [List.length_cons] at room
        have width := Hex.length_encode front
        have stored := @store_append (Hex.encode front ++
          [Hex.digit (byte.toNat / 16)]) spare second
          (Hex.digit (byte.toNat % 16)) (front.length * 2 + 1) (by
            rw [List.length_append, width, List.length_singleton]
            omega)
        have later := @ih (front ++ [byte]) spare (by omega)
        have pair : Hex.encode [byte] = [Hex.digit (byte.toNat / 16),
            Hex.digit (byte.toNat % 16)] := rfl
        rw [List.length_append, List.length_singleton, Hex.encode_append,
          pair, List.append_assoc, List.append_assoc] at later
        rw [List.append_assoc, List.append_assoc] at stored
        have behind : (first :: second :: spare).drop
            (2 * (back.length + 1)) = spare.drop (2 * back.length) := by
          rw [Nat.mul_add, List.drop_succ_cons, List.drop_succ_cons]
        rw [List.length_cons, encodeFrom, load_append rfl, ok_bind, load_high,
          ok_bind, store_append (by omega), ok_bind, load_low, ok_bind,
          behind]
        simp only [List.cons_append, List.nil_append] at stored later ⊢
        rw [stored, ok_bind, later]

/-- The digits of the input and the terminator, in front of what the buffer
held there. -/
theorem hexEncode_eq {input output : Bytes}
    (room : 2 * input.length + 1 ≤ output.length) :
    hexEncode input input.length output = .ok (Hex.encode input ++
      0 :: output.drop (2 * input.length + 1)) := by
  have turns := @encodeFrom_eq [] input output (by omega)
  have placed : output.drop (2 * input.length) =
      output[2 * input.length] :: output.drop (2 * input.length + 1) :=
    List.drop_eq_getElem_cons (by omega)
  rw [List.nil_append, placed] at turns
  rw [hexEncode]
  have loop : encodeFrom input input.length 0 output = _ := turns
  rw [loop, ok_bind]
  refine store_append ?_
  rw [Hex.length_encode]
  omega

theorem hexDigit_some {value : UInt8} {number : Nat}
    (reads : Hex.lowerValue value = some number) :
    hexDigit value = number ∧ number < 16 := by
  unfold Hex.lowerValue at reads
  unfold hexDigit
  split at reads
  · rename_i decimal
    cases reads
    rw [if_pos decimal]
    simp only [UInt8.le_iff_toNat_le, UInt8.reduceToNat] at decimal
    omega
  split at reads
  · rename_i notDecimal letter
    cases reads
    rw [if_neg notDecimal, if_pos letter]
    simp only [UInt8.le_iff_toNat_le, UInt8.reduceToNat] at letter
    omega
  · cases reads

theorem hexDigit_none {value : UInt8}
    (unread : Hex.lowerValue value = none) : hexDigit value = -1 := by
  unfold Hex.lowerValue at unread
  unfold hexDigit
  split at unread
  · cases unread
  split at unread
  · cases unread
  · rename_i notDecimal notLetter
    rw [if_neg notDecimal, if_neg notLetter]

theorem decodeFrom_eq {left : Nat} {front text beyond done spare : Bytes}
    (place : front.length = done.length * 2)
    (width : text.length = 2 * left) (room : left ≤ spare.length) :
    decodeFrom (front ++ text ++ beyond) left done.length (done ++ spare) =
      .ok ((Hex.decode Hex.lowerValue text).map fun bytes =>
        done ++ bytes ++ spare.drop left) := by
  induction left generalizing front text done spare with
  | zero =>
      cases List.length_eq_zero_iff.mp width
      simp [decodeFrom, Hex.decode, pure, Except.pure]
  | succ left ih =>
      rcases text with - | ⟨high, - | ⟨low, text⟩⟩
      · simp only [List.length_nil] at width
        omega
      · simp only [List.length_cons, List.length_nil] at width
        omega
      rcases spare with - | ⟨old, spare⟩
      · simp at room
      simp only [List.length_cons] at width room
      have first : TextScan.load (front ++ high :: low :: text ++ beyond)
          (done.length * 2) = .ok high := by
        rw [List.append_assoc]
        exact load_append place.symm
      have second : TextScan.load (front ++ high :: low :: text ++ beyond)
          (done.length * 2 + 1) = .ok low := by
        rw [List.append_assoc, List.cons_append, List.append_cons]
        exact load_append (by
          rw [List.length_append, List.length_singleton, place])
      rw [decodeFrom, first, ok_bind, second, ok_bind, Hex.decode]
      cases upper : Hex.lowerValue high with
      | none =>
          rw [hexDigit_none upper]
          rfl
      | some upperValue =>
          obtain ⟨upperDigit, -⟩ := hexDigit_some upper
          cases lower : Hex.lowerValue low with
          | none =>
              rw [hexDigit_none lower, if_pos (Or.inr (by decide))]
              rfl
          | some lowerValue =>
              obtain ⟨lowerDigit, small⟩ := hexDigit_some lower
              have joined : upperValue <<< 4 ||| lowerValue =
                  16 * upperValue + lowerValue := by
                rw [← Nat.shiftLeft_add_eq_or_of_lt (by omega),
                  Nat.shiftLeft_eq]
                omega
              have later := @ih (front ++ [high, low]) text
                (done ++ [UInt8.ofNat (16 * upperValue + lowerValue)]) spare
                (by simp; omega) (by omega) (by omega)
              rw [upperDigit, lowerDigit, if_neg (by omega),
                store_append rfl, ok_bind, Int.toNat_natCast,
                Int.toNat_natCast, joined]
              simp only [List.length_append, List.length_singleton,
                List.append_assoc, List.cons_append, List.nil_append]
                at later ⊢
              rw [later]
              cases Hex.decode Hex.lowerValue text with
              | none => rfl
              | some bytes => rfl

/-- A C string of at most 510 digits is decoded in the buffer of 256 bytes,
unless it is empty. -/
theorem hexDecode_eq {text beyond output : Bytes} (clean : (0 : UInt8) ∉ text)
    (short : text.length ≤ 510) (room : output.length = 256) :
    hexDecode (text ++ 0 :: beyond) output =
      .ok (if text = [] then none
        else (Hex.decode Hex.lowerValue text).map fun bytes =>
          bytes ++ 0 :: output.drop (bytes.length + 1)) := by
  have counted := @TextScan.strlen_eq text beyond clean
    ((text ++ 0 :: beyond).length + 1) [] text rfl (by
      rw [List.length_append]
      omega)
  rw [List.length_nil] at counted
  have parity : text.length &&& 1 = text.length % 2 :=
    Nat.and_two_pow_sub_one_eq_mod text.length 1
  rw [hexDecode, counted, ok_bind, parity]
  by_cases empty : text = []
  · rw [if_pos (by simp [empty]), if_pos empty]
    rfl
  have positive := List.length_pos_iff.mpr empty
  rw [if_neg empty]
  by_cases odd : text.length % 2 = 1
  · have undecoded : Hex.decode Hex.lowerValue text = none := by
      rw [← Option.not_isSome_iff_eq_none, Option.isSome_iff_exists]
      rintro ⟨bytes, decoded⟩
      have width := Hex.length_decode decoded
      omega
    rw [if_pos (by omega), undecoded]
    rfl
  · have turns := @decodeFrom_eq (text.length / 2) [] text (0 :: beyond) []
      output rfl (by omega) (by omega)
    rw [List.nil_append, List.nil_append, List.length_nil] at turns
    rw [if_neg (by omega), turns, ok_bind]
    cases decoded : Hex.decode Hex.lowerValue text with
    | none => rfl
    | some bytes =>
        have width := Hex.length_decode decoded
        have half : text.length / 2 = bytes.length := by omega
        have placed : output.drop bytes.length =
            output[bytes.length] :: output.drop (bytes.length + 1) :=
          List.drop_eq_getElem_cons (by omega)
        simp only [Option.map_some, List.nil_append, half, placed]
        rw [store_append rfl]
        rfl

theorem cString_terminated (bytes rest : Bytes) :
    cString (bytes ++ 0 :: rest) = cString bytes := by
  rw [cString, cString]
  induction bytes with
  | nil => rfl
  | cons byte bytes ih =>
      rw [List.cons_append, List.takeWhile_cons, List.takeWhile_cons, ih]

theorem encode_noNul (bytes : Bytes) : (0 : UInt8) ∉ Hex.encode bytes :=
  fun member => (encode_visible member).1 rfl

/-- The two functions are inverse on the names a marker can hold. -/
theorem hexDecode_encode {name : Name} (markable : MarkableName name)
    (beyond : Bytes) {output : Bytes} (room : output.length = 256) :
    ∃ decoded, hexDecode (Hex.encode name ++ 0 :: beyond) output =
      .ok (some decoded) ∧ cString decoded = name := by
  have width := Hex.length_encode name
  have short := markable.short
  have positive := List.length_pos_iff.mpr markable.ne_nil
  have nonempty : Hex.encode name ≠ [] := by
    rw [← List.length_pos_iff]
    omega
  rw [hexDecode_eq (encode_noNul name) (by omega) room, if_neg nonempty,
    Hex.decode_encode Hex.lowerValue_digit, Option.map_some]
  refine ⟨_, rfl, ?_⟩
  rw [cString_terminated, cString_eq_self markable.noNul]

/-- The name of `markedFilename` is what `hex_decode` leaves in its buffer,
where that is the name of a JAR in UTF-8. -/
theorem markedFilename_hexDecode {text beyond output : Bytes}
    (clean : (0 : UInt8) ∉ text) (short : text.length ≤ 510)
    (room : output.length = 256) :
    ∃ decoded, hexDecode (text ++ 0 :: beyond) output = .ok decoded ∧
      markedFilename text = decoded.bind fun buffer =>
        if (Unicode.decode (cString buffer)).isSome ∧
            jarName (cString buffer) then
          some (cString buffer)
        else none := by
  refine ⟨_, hexDecode_eq clean short room, ?_⟩
  unfold markedFilename
  by_cases empty : text = []
  · subst empty
    rfl
  · rw [if_neg empty]
    cases decoded : Hex.decode Hex.lowerValue text with
    | none => rfl
    | some bytes =>
        have width := Hex.length_decode decoded
        have positive := List.length_pos_iff.mpr empty
        have nonempty : bytes ≠ [] := by
          rw [← List.length_pos_iff]
          omega
        simp [decodedName, nonempty, cString_terminated]

theorem markedFilename_encode {name : Name} (markable : MarkableName name)
    (text : (Unicode.decode name).isSome = true) :
    markedFilename (Hex.encode name) = some name := by
  have width := Hex.length_encode name
  have short := markable.short
  have room : (List.replicate 256 (0 : UInt8)).length = 256 :=
    List.length_replicate
  obtain ⟨decoded, decodes, marked⟩ := @markedFilename_hexDecode
    (Hex.encode name) [] _ (encode_noNul name) (by omega) room
  obtain ⟨buffer, holds, same⟩ := hexDecode_encode markable [] room
  rw [decodes] at holds
  cases holds
  rw [marked, Option.bind_some, same, if_pos ⟨text, markable.jar⟩]

end RymgaLoader.Native.Windows
