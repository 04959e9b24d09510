import Mathlib.Data.List.Basic

/-!
# Hexadecimal text

Bytes written as two lower case digits each, and two readers: one for digits
of either case and one for lower case digits only.
-/

namespace Hex

def digit (value : Nat) : UInt8 :=
  if value < 10 then UInt8.ofNat (0x30 + value)
  else UInt8.ofNat (0x57 + value)

def encode (bytes : List UInt8) : List UInt8 :=
  bytes.flatMap fun byte => [digit (byte.toNat / 16), digit (byte.toNat % 16)]

def lowerValue (byte : UInt8) : Option Nat :=
  if 0x30 ≤ byte ∧ byte ≤ 0x39 then some (byte.toNat - 0x30)
  else if 0x61 ≤ byte ∧ byte ≤ 0x66 then some (byte.toNat - 0x57)
  else none

def value (byte : UInt8) : Option Nat :=
  if 0x41 ≤ byte ∧ byte ≤ 0x46 then some (byte.toNat - 0x37)
  else lowerValue byte

/-- Two digits make a byte; an odd digit or any other character is an
error. -/
def decode (value : UInt8 → Option Nat) : List UInt8 → Option (List UInt8)
  | [] => some []
  | [_] => none
  | high :: low :: rest => do
      let high ← value high
      let low ← value low
      let rest ← decode value rest
      some (UInt8.ofNat (16 * high + low) :: rest)

theorem encode_append (left right : List UInt8) :
    encode (left ++ right) = encode left ++ encode right :=
  List.flatMap_append

theorem length_encode (bytes : List UInt8) :
    (encode bytes).length = 2 * bytes.length := by
  induction bytes with
  | nil => rfl
  | cons byte bytes ih =>
      simp only [encode, List.flatMap_cons, List.length_append,
        List.length_cons, List.length_nil] at ih ⊢
      omega

theorem length_decode {value : UInt8 → Option Nat} {text bytes : List UInt8}
    (decoded : decode value text = some bytes) :
    text.length = 2 * bytes.length := by
  induction text using decode.induct generalizing bytes with
  | case1 =>
      cases decoded
      rfl
  | case2 => cases decoded
  | case3 high low rest ih =>
      simp only [decode, Option.bind_eq_bind, Option.bind_eq_some_iff]
        at decoded
      obtain ⟨upper, -, lower, -, tail, found, same⟩ := decoded
      cases same
      have length := ih found
      simp only [List.length_cons]
      omega

/-- Every digit is a lower case one. -/
theorem lowerValue_digit : ∀ number : Fin 16,
    lowerValue (digit number) = some number.val := by decide

theorem value_digit : ∀ number : Fin 16,
    value (digit number) = some number.val := by decide

theorem mem_encode {bytes : List UInt8} {byte : UInt8}
    (member : byte ∈ encode bytes) :
    ∃ number : Fin 16, byte = digit number := by
  obtain ⟨source, -, inside⟩ := List.mem_flatMap.mp member
  have small := source.toNat_lt
  rcases List.mem_pair.mp inside with rfl | rfl
  · exact ⟨⟨source.toNat / 16, by omega⟩, rfl⟩
  · exact ⟨⟨source.toNat % 16, by omega⟩, rfl⟩

/-- What was written reads back. -/
theorem decode_encode {value : UInt8 → Option Nat}
    (reads : ∀ number : Fin 16, value (digit number) = some number.val)
    (bytes : List UInt8) : decode value (encode bytes) = some bytes := by
  induction bytes with
  | nil => rfl
  | cons byte bytes ih =>
      have small := byte.toNat_lt
      have high := reads ⟨byte.toNat / 16, by omega⟩
      have low := reads ⟨byte.toNat % 16, by omega⟩
      have whole : 16 * (byte.toNat / 16) + byte.toNat % 16 = byte.toNat := by
        omega
      have unfolded : encode (byte :: bytes) = digit (byte.toNat / 16) ::
          digit (byte.toNat % 16) :: encode bytes := rfl
      rw [unfolded, decode, high, low, ih]
      simp only [Option.bind_eq_bind, Option.bind_some]
      rw [whole, UInt8.ofNat_toNat]

end Hex
